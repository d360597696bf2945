import Veer.MapVisits
import Veer.BearerText

/-!
# Bearer extraction

`ExtractBearer` finds credential carriers by separate scans over the request and removes them where
they are. A map is visited in an order of its own by each loop; `orders n` is the order of the `n`th
loop. A guarded body belongs to this request, as it does when extraction runs on the original
inbound request; what it wraps is never read here. Nil requests are left out.
-/
namespace Veer.Bearer

open MapVisits

abbrev Header := AList fun _ : Bytes => List Bytes

abbrev HeaderOrder := Order fun _ : Bytes => List Bytes

structure URL where
  rawQuery : Bytes
  forceQuery : Bool

/-- A guard remembers whether a credential trailer was seen. -/
inductive Body
  | absent | noBody | plain
  | guarded (rejected : Bool)

/-- The parts of a request that extraction reads or changes; `none` is a nil pointer or map. -/
structure Request where
  header : Header
  trailer : Header
  url : Option URL
  requestURI : Bytes
  form : Option Header
  postForm : Option Header
  transferEncoding : List Bytes
  body : Body

/-! ## The Authorization field -/

structure AuthorizationScan where
  header : Header
  value : Bytes
  keyCount : Nat
  valueCount : Nat

def isAuthorization (name : Bytes) : Bool := asciiEqualFold name (ascii "Authorization")

def AuthorizationScan.visit (scan : AuthorizationScan) (entry : Sigma fun _ : Bytes => List Bytes) :
    AuthorizationScan :=
  if !isAuthorization entry.1 then scan
  else
    { header := scan.header.erase entry.1
      value :=
        if scan.valueCount = 0 ∧ 0 < entry.2.length then entry.2.headD [] else scan.value
      keyCount := scan.keyCount + 1
      valueCount :=
        if 1 < entry.2.length ∨ 0 < scan.valueCount ∧ 0 < entry.2.length then 2
        else scan.valueCount + entry.2.length }

/-- What `takeAuthorization` reports of the field it has removed. -/
structure Authorization where
  value : Bytes
  present : Bool
  single : Bool

def takeAuthorization (order : HeaderOrder) (header : Header) : Header × Authorization :=
  let scan := (order.visit header).foldl AuthorizationScan.visit ⟨header, [], 0, 0⟩
  (scan.header,
    { value := scan.value
      present := decide (0 < scan.keyCount)
      single := scan.keyCount == 1 && scan.valueCount == 1 })

theorem isAuthorization_iff (name : Bytes) :
    isAuthorization name = true ↔ SameName name (ascii "Authorization") :=
  asciiEqualFold_iff _ _

/-- The header has one `Authorization` key, in some spelling, with `value` as its one value. -/
def OneAuthorization (header : Header) (value : Bytes) : Prop :=
  ∃ key, SameName key (ascii "Authorization") ∧ header.lookup key = some [value] ∧
    ∀ other values, header.lookup other = some values →
      SameName other (ascii "Authorization") → other = key

/-- The header has no `Authorization` key in any spelling. -/
def NoAuthorization (header : Header) : Prop :=
  ∀ key values, header.lookup key = some values → ¬ SameName key (ascii "Authorization")

theorem scan_header (visited : List (Sigma fun _ : Bytes => List Bytes))
    (scan : AuthorizationScan) :
    (visited.foldl AuthorizationScan.visit scan).header =
      deleteWhere visited isAuthorization scan.header := by
  unfold deleteWhere
  induction visited generalizing scan with
  | nil => rfl
  | cons entry visited ih =>
    rw [List.foldl_cons, List.foldl_cons, ih]
    unfold AuthorizationScan.visit
    cases isAuthorization entry.1 <;> rfl

variable (orders : Nat → HeaderOrder) (order : HeaderOrder) (request : Request) (header : Header)

theorem lookup_takeAuthorization (key : Bytes) :
    (takeAuthorization order header).1.lookup key =
      if isAuthorization key then none else header.lookup key := by
  unfold takeAuthorization
  dsimp only
  rw [scan_header]
  exact lookup_deleteWhere order isAuthorization header key

/-- The entries that the scan counts. -/
def authorizations (order : HeaderOrder) (header : Header) :
    List (Sigma fun _ : Bytes => List Bytes) :=
  (order.visit header).filter fun entry => isAuthorization entry.1

variable {values : List Bytes} {key : Bytes}

theorem mem_authorizations {header : Header} :
    ⟨key, values⟩ ∈ authorizations order header ↔
      header.lookup key = some values ∧ SameName key (ascii "Authorization") := by
  rw [authorizations, List.mem_filter, order.mem_visit, isAuthorization_iff]

theorem scan_authorizations (scan : AuthorizationScan) :
    (order.visit header).foldl AuthorizationScan.visit scan =
      (authorizations order header).foldl AuthorizationScan.visit scan := by
  rw [authorizations, List.foldl_filter]
  congr 1
  funext scan entry
  unfold AuthorizationScan.visit
  cases isAuthorization entry.1 <;> rfl

theorem scan_keyCount {entries : List (Sigma fun _ : Bytes => List Bytes)}
    (hentries : ∀ entry ∈ entries, isAuthorization entry.1 = true) (scan : AuthorizationScan) :
    (entries.foldl AuthorizationScan.visit scan).keyCount = scan.keyCount + entries.length := by
  induction entries generalizing scan with
  | nil => rfl
  | cons entry entries ih =>
    have hkey := hentries entry List.mem_cons_self
    have hcount : (scan.visit entry).keyCount = scan.keyCount + 1 := by
      unfold AuthorizationScan.visit
      rw [hkey]
      rfl
    have hrest := ih (fun other hother => hentries other (List.mem_cons_of_mem _ hother))
      (scan.visit entry)
    rw [List.foldl_cons, hrest, hcount, List.length_cons]
    omega

theorem takeAuthorization_keyCount :
    ((order.visit header).foldl AuthorizationScan.visit ⟨header, [], 0, 0⟩).keyCount =
      (authorizations order header).length := by
  have hkeys : ∀ entry ∈ authorizations order header, isAuthorization entry.1 = true :=
    fun entry hentry => (List.mem_filter.mp hentry).2
  rw [scan_authorizations, scan_keyCount hkeys]
  exact Nat.zero_add _

theorem takeAuthorization_absent :
    (takeAuthorization order header).2.present = false ↔ NoAuthorization header := by
  have hpresent : (takeAuthorization order header).2.present =
      decide (0 < (authorizations order header).length) := by
    rw [← takeAuthorization_keyCount]
    rfl
  rw [hpresent, decide_eq_false_iff_not, List.length_pos_iff, not_not,
    List.eq_nil_iff_forall_not_mem]
  constructor
  · intro hnone key values hlookup hname
    exact hnone _ ((mem_authorizations order).mpr ⟨hlookup, hname⟩)
  · rintro hnone ⟨key, values⟩ hmem
    obtain ⟨hlookup, hname⟩ := (mem_authorizations order).mp hmem
    exact hnone key values hlookup hname

theorem authorizations_singleton {header : Header} {value : Bytes} :
    (∃ key, authorizations order header = [⟨key, [value]⟩]) ↔ OneAuthorization header value := by
  constructor
  · rintro ⟨key, hsingle⟩
    have hmem : ⟨key, [value]⟩ ∈ authorizations order header := by
      rw [hsingle]
      exact List.mem_singleton_self _
    obtain ⟨hlookup, hname⟩ := (mem_authorizations order).mp hmem
    refine ⟨key, hname, hlookup, fun other values hother hsame => ?_⟩
    have hother := (mem_authorizations order).mpr ⟨hother, hsame⟩
    rw [hsingle, List.mem_singleton] at hother
    exact congrArg Sigma.fst hother
  · rintro ⟨key, hname, hlookup, honly⟩
    have hnodup : (authorizations order header).Nodup :=
      (List.NodupKeys.nodup (order.nodupKeys_visit header)).filter _
    refine ⟨key, List.perm_singleton.mp ?_⟩
    refine (List.perm_ext_iff_of_nodup hnodup (List.nodup_singleton _)).mpr ?_
    rintro ⟨other, values⟩
    rw [mem_authorizations, List.mem_singleton]
    constructor
    · rintro ⟨hother, hsame⟩
      obtain rfl := honly other values hother hsame
      rw [hlookup, Option.some.injEq] at hother
      rw [hother]
    · rintro ⟨rfl, rfl⟩
      exact ⟨hlookup, hname⟩

theorem takeAuthorization_single (value : Bytes) :
    ((takeAuthorization order header).2.single = true ∧
        (takeAuthorization order header).2.value = value) ↔ OneAuthorization header value := by
  rw [← authorizations_singleton order]
  have hcount := takeAuthorization_keyCount order header
  have hscan := scan_authorizations order header ⟨header, [], 0, 0⟩
  have hkeys : ∀ entry ∈ authorizations order header, isAuthorization entry.1 = true :=
    fun entry hentry => (List.mem_filter.mp hentry).2
  unfold takeAuthorization
  dsimp only
  rw [hcount, hscan]
  cases hentries : authorizations order header with
  | nil => simp
  | cons entry rest =>
    cases rest with
    | nil =>
      obtain ⟨key, values⟩ := entry
      have hkey : isAuthorization key = true := hkeys ⟨key, values⟩ (by simp [hentries])
      match values with
      | [] | [only] | first :: second :: values => simp [AuthorizationScan.visit, hkey]
    | cons => simp

/-! ## Query views -/

def inspectQueryViews (request : Request) : Bool × Bool :=
  let urlQuery := (request.url.map URL.rawQuery).getD []
  let urlHasQuery := request.url.any fun url => !url.rawQuery.isEmpty || url.forceQuery
  let requestQuery := (splitRequestURIQuery request.requestURI).getD []
  let requestHasQuery := (splitRequestURIQuery request.requestURI).isSome
  (request.url.any (fun url => hasAccessTokenQuery url.rawQuery) ||
      hasAccessTokenQuery requestQuery,
    request.url.isSome && !request.requestURI.isEmpty &&
      (urlHasQuery != requestHasQuery || urlHasQuery && urlQuery != requestQuery))

/-- What the URL holds as its query: an empty one only where it is forced. -/
def URL.query (url : URL) : Option Bytes :=
  if url.rawQuery = [] ∧ url.forceQuery = false then none else some url.rawQuery

def QueryCarrier (request : Request) : Prop :=
  (∃ url, request.url = some url ∧ AccessTokenQuery url.rawQuery) ∨
    ∃ query, splitRequestURIQuery request.requestURI = some query ∧ AccessTokenQuery query

/-- Both views are populated and differ. -/
def QueryDivergence (request : Request) : Prop :=
  ∃ url, request.url = some url ∧ request.requestURI ≠ [] ∧
    url.query ≠ splitRequestURIQuery request.requestURI

theorem inspectQueryViews_carrier :
    (inspectQueryViews request).1 = true ↔ QueryCarrier request := by
  have hempty : hasAccessTokenQuery [] = false := by decide
  unfold inspectQueryViews QueryCarrier
  simp only [Bool.or_eq_true, Option.any_eq_true, hasAccessTokenQuery_iff]
  refine or_congr Iff.rfl ?_
  cases hsplit : splitRequestURIQuery request.requestURI with
  | none => simp [← hasAccessTokenQuery_iff, hempty]
  | some => simp

theorem inspectQueryViews_mismatch :
    (inspectQueryViews request).2 = true ↔ QueryDivergence request := by
  unfold inspectQueryViews QueryDivergence
  cases hurl : request.url with
  | none => simp
  | some url =>
    cases hsplit : splitRequestURIQuery request.requestURI with
    | none => cases hforce : url.forceQuery <;> simp [URL.query, hforce]
    | some query =>
      by_cases hraw : url.rawQuery = []
      · cases hforce : url.forceQuery <;> simp [URL.query, hforce, hraw]
      · simp [URL.query, hraw]

/-- Drop both complete views, and leave forms that will not be parsed again. -/
def removeQuery (request : Request) : Request :=
  { request with
    url := request.url.map fun url => { url with rawQuery := [], forceQuery := false }
    requestURI := request.requestURI.takeWhile (· != 63)
    form := some ∅
    postForm := some ∅ }

/-! ## Cookies -/

def isCookie (name : Bytes) : Bool := asciiEqualFold name (ascii "Cookie")

def hasAccessTokenCookie (order : HeaderOrder) (header : Header) : Bool :=
  (order.visit header).any fun entry => isCookie entry.1 && entry.2.any accessTokenCookie

def removeCookies (order : HeaderOrder) (header : Header) : Header :=
  deleteWhere (order.visit header) isCookie header

theorem isCookie_iff (name : Bytes) : isCookie name = true ↔ SameName name (ascii "Cookie") :=
  asciiEqualFold_iff _ _

def CookieCarrier (header : Header) : Prop :=
  ∃ key values, header.lookup key = some values ∧ SameName key (ascii "Cookie") ∧
    ∃ value ∈ values, ∃ cookie ∈ value.splitOn 59,
      trimString (cutName (trimString cookie)) = accessTokenParameter

theorem hasAccessTokenCookie_iff :
    hasAccessTokenCookie order header = true ↔ CookieCarrier header := by
  unfold hasAccessTokenCookie CookieCarrier
  rw [order.any_visit]
  simp only [Bool.and_eq_true, isCookie_iff, List.any_eq_true, accessTokenCookie, beq_iff_eq]

/-! ## Trailers -/

def isTrailer (name : Bytes) : Bool := asciiEqualFold name (ascii "Trailer")

def hasCredentialTrailerDeclaration (orders : Nat → HeaderOrder) (request : Request) : Bool :=
  ((orders 2).visit request.trailer).any (fun entry => isCredentialTrailerName entry.1) ||
    ((orders 3).visit request.header).any fun entry =>
      isTrailer entry.1 && entry.2.any hasCredentialTrailerName

theorem isTrailer_iff (name : Bytes) : isTrailer name = true ↔ SameName name (ascii "Trailer") :=
  asciiEqualFold_iff _ _

/-- A name under which a trailer could carry a credential. -/
def CredentialName (name : Bytes) : Prop :=
  SameName name (ascii "Authorization") ∨ SameName name (ascii "Cookie")

instance (name : Bytes) : Decidable (CredentialName name) :=
  inferInstanceAs (Decidable (_ ∨ _))

theorem isCredentialTrailerName_iff (name : Bytes) :
    isCredentialTrailerName name = true ↔ CredentialName name := by
  unfold isCredentialTrailerName CredentialName
  rw [Bool.or_eq_true, asciiEqualFold_iff, asciiEqualFold_iff]

/-- The names that the values of one `Trailer` key declare, in order. -/
def declaredNames (header : Header) (key : Bytes) : List Bytes :=
  ((header.lookup key).getD []).flatMap trailerNames

theorem hasCredentialTrailerName_iff (value : Bytes) :
    hasCredentialTrailerName value = true ↔ ∃ name ∈ trailerNames value, CredentialName name := by
  have hempty : isCredentialTrailerName [] = false := by decide
  unfold hasCredentialTrailerName trailerNames
  rw [List.any_eq_true]
  constructor
  · rintro ⟨piece, hpiece, hname⟩
    refine ⟨trimString piece, ?_, (isCredentialTrailerName_iff _).mp hname⟩
    refine List.mem_filter.mpr ⟨List.mem_map_of_mem hpiece, ?_⟩
    cases htrim : trimString piece with
    | nil =>
      rw [htrim, hempty] at hname
      cases hname
    | cons => rfl
  · rintro ⟨name, hmem, hname⟩
    obtain ⟨piece, hpiece, rfl⟩ := List.mem_map.mp (List.mem_filter.mp hmem).1
    exact ⟨piece, hpiece, (isCredentialTrailerName_iff _).mpr hname⟩

/-- A trailer that could carry a credential is present or declared. -/
def TrailerNamed (request : Request) : Prop :=
  (∃ key values, request.trailer.lookup key = some values ∧ CredentialName key) ∨
    ∃ key, SameName key (ascii "Trailer") ∧
      ∃ name ∈ declaredNames request.header key, CredentialName name

theorem declares_iff (key : Bytes) :
    (∃ name ∈ declaredNames header key, CredentialName name) ↔
      ∃ values, header.lookup key = some values ∧
        values.any hasCredentialTrailerName = true := by
  unfold declaredNames
  cases header.lookup key with
  | none => simp
  | some =>
    simp only [Option.getD_some, List.mem_flatMap, Option.some.injEq, exists_eq_left',
      List.any_eq_true, hasCredentialTrailerName_iff]
    tauto

theorem hasCredentialTrailerDeclaration_iff :
    hasCredentialTrailerDeclaration orders request = true ↔ TrailerNamed request := by
  unfold hasCredentialTrailerDeclaration TrailerNamed
  rw [Bool.or_eq_true, Order.any_visit, Order.any_visit]
  simp only [Bool.and_eq_true, isCredentialTrailerName_iff, isTrailer_iff, declares_iff]
  refine or_congr Iff.rfl ?_
  constructor
  · rintro ⟨key, values, hlookup, hname, hdeclares⟩
    exact ⟨key, hname, values, hlookup, hdeclares⟩
  · rintro ⟨key, hname, values, hlookup, hdeclares⟩
    exact ⟨key, values, hlookup, hname, hdeclares⟩

def bodyMayMaterializeTrailers (orders : Nat → HeaderOrder) (request : Request) : Bool :=
  match request.body with
  | .absent | .noBody => false
  | _ =>
    !request.trailer.entries.isEmpty ||
      ((orders 4).visit request.header).any (fun entry => isTrailer entry.1) ||
      request.transferEncoding.any fun encoding => asciiEqualFold encoding (ascii "chunked")

def removeCredentialTrailerFields (order : HeaderOrder) (trailer : Header) : Header × Bool :=
  (deleteWhere (order.visit trailer) isCredentialTrailerName trailer,
    (order.visit trailer).any fun entry => isCredentialTrailerName entry.1)

/-- The values of one key while the loop rewrites them in place: the first `kept` slots are
filtered already. -/
structure DeclarationSlots where
  slots : List Bytes
  kept : Nat
  removedAny : Bool

def DeclarationSlots.visit (state : DeclarationSlots) (index : Nat) : DeclarationSlots :=
  let (safe, removed) := removeCredentialTrailerNames (state.slots.getD index [])
  let blanked := state.slots.set index []
  if !removed || !safe.isEmpty then
    ⟨blanked.set state.kept safe, state.kept + 1, state.removedAny || removed⟩
  else ⟨blanked, state.kept, state.removedAny || removed⟩

def filterDeclarations (values : List Bytes) : List Bytes × Bool :=
  let final := (List.range values.length).foldl DeclarationSlots.visit ⟨values, 0, false⟩
  (final.slots.take final.kept, final.removedAny)

/-! ### What the loop over the slots leaves -/

/-- What becomes of one declaration. -/
def keptDeclaration (value : Bytes) : Option Bytes :=
  let (safe, removed) := removeCredentialTrailerNames value
  if !removed || !safe.isEmpty then some safe else none

/-- After `index` rounds the first `kept` slots hold what is kept of the values before `index`, and
the slots from `index` on are as they were. -/
structure Filtered (values : List Bytes) (index : Nat) (state : DeclarationSlots) : Prop where
  length : state.slots.length = values.length
  ahead : state.slots.drop index = values.drop index
  kept_le : state.kept ≤ index
  filtered : state.slots.take state.kept = (values.take index).filterMap keptDeclaration
  removed : state.removedAny = (values.take index).any hasCredentialTrailerName

theorem Filtered.visit {index : Nat} {state : DeclarationSlots} (h : Filtered values index state)
    (hindex : index < values.length) : Filtered values (index + 1) (state.visit index) := by
  have hslot : state.slots.getD index [] = values[index] := by
    have hget := congrArg (fun slots : List Bytes => slots[0]?) h.ahead
    simp only [List.getElem?_drop, Nat.add_zero] at hget
    rw [List.getD_eq_getElem?_getD, hget, List.getElem?_eq_getElem hindex]
    rfl
  have hahead : state.slots.drop (index + 1) = values.drop (index + 1) := by
    have htail := congrArg (List.drop 1) h.ahead
    rwa [List.drop_drop, List.drop_drop] at htail
  have hblank : (state.slots.set index []).take state.kept = state.slots.take state.kept :=
    List.take_set_of_le h.kept_le
  have htake : values.take (index + 1) = values.take index ++ [values[index]] :=
    (List.take_append_getElem hindex).symm
  have hremoved : (state.removedAny || (removeCredentialTrailerNames values[index]).2) =
      (values.take (index + 1)).any hasCredentialTrailerName := by
    rw [htake, List.any_append, h.removed, removeCredentialTrailerNames_removed]
    simp
  have hkept := h.kept_le
  have hlength := h.length
  have hkeep : keptDeclaration values[index] =
      if !(removeCredentialTrailerNames values[index]).2 ||
        !(removeCredentialTrailerNames values[index]).1.isEmpty
      then some (removeCredentialTrailerNames values[index]).1 else none := rfl
  unfold DeclarationSlots.visit
  rw [hslot]
  dsimp only
  split_ifs with hkeeps
  · rw [if_pos hkeeps] at hkeep
    refine ⟨by simp [hlength], ?_, by dsimp only; omega, ?_, hremoved⟩
    · rw [List.drop_set_of_lt (by omega), List.drop_set_of_lt (by omega)]
      exact hahead
    · rw [htake, List.filterMap_append, ← h.filtered, ← hblank]
      rw [List.take_succ_eq_append_getElem (by simp; omega), List.take_set_of_le le_rfl]
      simp [hkeep]
  · rw [if_neg hkeeps] at hkeep
    refine ⟨by simp [hlength], ?_, by dsimp only; omega, ?_, hremoved⟩
    · rw [List.drop_set_of_lt (by omega)]
      exact hahead
    · rw [htake, List.filterMap_append, ← h.filtered, ← hblank]
      simp [hkeep]

theorem filterDeclarations_filtered (values : List Bytes) {index : Nat}
    (hindex : index ≤ values.length) :
    Filtered values index
      ((List.range index).foldl DeclarationSlots.visit ⟨values, 0, false⟩) := by
  induction index with
  | zero => exact ⟨rfl, rfl, le_rfl, rfl, rfl⟩
  | succ index ih =>
    rw [List.range_succ, List.foldl_append]
    exact (ih (by omega)).visit hindex

/-- Rewriting in place is a filter. -/
theorem filterDeclarations_eq (values : List Bytes) :
    filterDeclarations values =
      (values.filterMap keptDeclaration, values.any hasCredentialTrailerName) := by
  have hfinal := filterDeclarations_filtered values le_rfl
  have hfiltered := hfinal.filtered
  have hremoved := hfinal.removed
  rw [List.take_length] at hfiltered hremoved
  exact Prod.ext hfiltered hremoved

theorem keptDeclaration_names (value : Bytes) :
    ((keptDeclaration value).map trailerNames).getD [] = safeNames value := by
  have hnames := trailerNames_remove value
  unfold keptDeclaration
  dsimp only
  split_ifs with hkeep
  · exact hnames
  have hempty : (removeCredentialTrailerNames value).1 = [] := by
    simp only [Bool.or_eq_true, not_or, Bool.not_eq_true'] at hkeep
    simpa using hkeep.2
  rw [hempty] at hnames
  rw [← hnames]
  decide

theorem flatMap_keptDeclaration (values : List Bytes) :
    (values.filterMap keptDeclaration).flatMap trailerNames =
      (values.flatMap trailerNames).filter fun name => !isCredentialTrailerName name := by
  induction values with
  | nil => rfl
  | cons value values ih =>
    have hnames := keptDeclaration_names value
    rw [List.flatMap_cons, List.filter_append, ← ih, List.filterMap_cons]
    change _ = safeNames value ++ _
    rw [← hnames]
    cases keptDeclaration value with
    | none | some => rfl

theorem filterMap_keptDeclaration_of_none (h : values.any hasCredentialTrailerName = false) :
    values.filterMap keptDeclaration = values := by
  refine (List.filterMap_congr (g := some) fun value hvalue => ?_).trans List.filterMap_some
  have hnone : hasCredentialTrailerName value = false := by
    simpa using List.any_eq_false.mp h value hvalue
  simp [keptDeclaration, removeCredentialTrailerNames, hnone]

/-- What becomes of all the declarations of one key. -/
def keptDeclarations (values : List Bytes) : Option (List Bytes) :=
  let filtered := values.filterMap keptDeclaration
  if filtered.isEmpty then none else some filtered

def removeCredentialTrailerDeclarations (order : HeaderOrder) (header : Header) : Header × Bool :=
  (rewriteWhere (order.visit header) isTrailer (fun values =>
      let filtered := (filterDeclarations values).1
      if filtered.isEmpty then none else some filtered) header,
    (order.visit header).any fun entry => isTrailer entry.1 && (filterDeclarations entry.2).2)

theorem lookup_removeCredentialTrailerDeclarations
    (key : Bytes) :
    (removeCredentialTrailerDeclarations order header).1.lookup key =
      if isTrailer key then (header.lookup key).bind keptDeclarations else header.lookup key := by
  unfold removeCredentialTrailerDeclarations
  simp only [filterDeclarations_eq]
  exact lookup_rewriteWhere order isTrailer keptDeclarations header key

theorem getD_keptDeclarations (values : List Bytes) :
    (keptDeclarations values).getD [] = values.filterMap keptDeclaration := by
  unfold keptDeclarations
  dsimp only
  split_ifs with hempty
  · exact (List.isEmpty_iff.mp hempty).symm
  · rfl

theorem keptDeclarations_of_none (hvalues : values ≠ [])
    (h : values.any hasCredentialTrailerName = false) : keptDeclarations values = some values := by
  unfold keptDeclarations
  rw [filterMap_keptDeclaration_of_none h]
  exact if_neg (by simpa using hvalues)

theorem removeCredentialTrailerDeclarations_removed :
    (removeCredentialTrailerDeclarations order header).2 =
      (order.visit header).any fun entry =>
        isTrailer entry.1 && entry.2.any hasCredentialTrailerName := by
  unfold removeCredentialTrailerDeclarations
  simp only [filterDeclarations_eq]

def scrubCredentialTrailerSurfaces (orders : Nat → HeaderOrder) (request : Request) :
    Request × Bool :=
  let (trailer, fieldsRemoved) := removeCredentialTrailerFields (orders 5) request.trailer
  let (header, declarationsRemoved) :=
    removeCredentialTrailerDeclarations (orders 6) request.header
  ({ request with trailer := trailer, header := header }, fieldsRemoved || declarationsRemoved)

/-- A guard that is there already scrubs once more and keeps what it has seen. -/
def protectCredentialTrailers (orders : Nat → HeaderOrder) (request : Request) : Request × Bool :=
  let rejected := hasCredentialTrailerDeclaration orders request
  match request.body with
  | .guarded earlier =>
    let (scrubbed, observed) := scrubCredentialTrailerSurfaces orders request
    ({ scrubbed with body := .guarded (earlier || rejected || observed) },
      earlier || rejected || observed)
  | _ =>
    if !rejected && !bodyMayMaterializeTrailers orders request then (request, false)
    else
      let scrubbed :=
        if rejected then (scrubCredentialTrailerSurfaces orders request).1 else request
      ({ scrubbed with body := .guarded rejected }, rejected)

theorem scrubCredentialTrailerSurfaces_observed :
    (scrubCredentialTrailerSurfaces orders request).2 =
      hasCredentialTrailerDeclaration orders request := by
  unfold scrubCredentialTrailerSurfaces hasCredentialTrailerDeclaration
  dsimp only
  rw [removeCredentialTrailerDeclarations_removed, Bool.eq_iff_iff]
  simp only [removeCredentialTrailerFields, Bool.or_eq_true, Order.any_visit]

def Body.isGuarded : Body → Bool
  | .guarded _ => true
  | _ => false

/-- A guard of an earlier extraction has seen a credential trailer; its rejection stays. -/
def Body.latched : Body → Bool
  | .guarded rejected => rejected
  | _ => false

/-- The trailer surfaces are scrubbed once something was found, and always under a guard. -/
def scrubs (orders : Nat → HeaderOrder) (request : Request) : Bool :=
  request.body.isGuarded || hasCredentialTrailerDeclaration orders request

/-- Everything that protection leaves alone, and what it does to the rest. -/
structure Protection (orders : Nat → HeaderOrder) (before after : Request) : Prop where
  url : after.url = before.url
  requestURI : after.requestURI = before.requestURI
  form : after.form = before.form
  postForm : after.postForm = before.postForm
  transferEncoding : after.transferEncoding = before.transferEncoding
  header : ∀ key, after.header.lookup key =
    if scrubs orders before && isTrailer key then (before.header.lookup key).bind keptDeclarations
    else before.header.lookup key
  trailer : ∀ key, after.trailer.lookup key =
    if scrubs orders before && isCredentialTrailerName key then none
    else before.trailer.lookup key

theorem scrubCredentialTrailerSurfaces_protection {orders : Nat → HeaderOrder} {request : Request}
    (hscrubs : scrubs orders request = true) (body : Body) :
    Protection orders request
      { (scrubCredentialTrailerSurfaces orders request).1 with body := body } where
  url := rfl
  requestURI := rfl
  form := rfl
  postForm := rfl
  transferEncoding := rfl
  header key := by
    rw [hscrubs]
    exact lookup_removeCredentialTrailerDeclarations (orders 6) request.header key
  trailer key := by
    rw [hscrubs]
    exact lookup_deleteWhere (orders 5) isCredentialTrailerName request.trailer key

theorem protection_untouched {orders : Nat → HeaderOrder} {request : Request}
    (hscrubs : scrubs orders request = false) (body : Body) :
    Protection orders request { request with body := body } where
  url := rfl
  requestURI := rfl
  form := rfl
  postForm := rfl
  transferEncoding := rfl
  header key := by simp [hscrubs]
  trailer key := by simp [hscrubs]

theorem protectCredentialTrailers_spec :
    Protection orders request (protectCredentialTrailers orders request).1 ∧
      (protectCredentialTrailers orders request).2 =
        (request.body.latched || hasCredentialTrailerDeclaration orders request) := by
  have hobserved := scrubCredentialTrailerSurfaces_observed orders request
  unfold protectCredentialTrailers
  dsimp only
  split
  case h_1 hbody =>
    have hscrubs : scrubs orders request = true := by
      rw [scrubs, hbody]
      rfl
    refine ⟨scrubCredentialTrailerSurfaces_protection hscrubs _, ?_⟩
    rw [hobserved, hbody, Bool.or_assoc, Bool.or_self]
    rfl
  case h_2 hbody =>
    have hunguarded : request.body.isGuarded = false ∧ request.body.latched = false := by
      cases hcase : request.body with
      | guarded rejected => exact absurd hcase (hbody rejected)
      | _ => exact ⟨rfl, rfl⟩
    have hscrubs : scrubs orders request = hasCredentialTrailerDeclaration orders request := by
      rw [scrubs, hunguarded.1, Bool.false_or]
    rw [hunguarded.2, Bool.false_or]
    split_ifs with hquiet hrejected
    · have hnone : hasCredentialTrailerDeclaration orders request = false := by
        simp only [Bool.and_eq_true, Bool.not_eq_true'] at hquiet
        exact hquiet.1
      exact ⟨protection_untouched (hscrubs.trans hnone) request.body, hnone.symm⟩
    · exact ⟨scrubCredentialTrailerSurfaces_protection (hscrubs.trans hrejected) _, rfl⟩
    · have hnone := hscrubs.trans (Bool.not_eq_true _ ▸ hrejected)
      exact ⟨protection_untouched hnone _, rfl⟩

/-! ## Extraction -/

/-- `none` is the error `ErrAuthenticationInvalid`; otherwise a credential, or its absence. -/
abbrev BearerAnswer := Option (Option BearerCredential)

def extractBearer (orders : Nat → HeaderOrder) (request : Request) : Request × BearerAnswer :=
  let (header, authorization) := takeAuthorization (orders 0) request.header
  let taken := { request with header := header }
  let (queryCarrier, queryMismatch) := inspectQueryViews taken
  let cookieCarrier := hasAccessTokenCookie (orders 1) taken.header
  let (guarded, trailerCarrier) := protectCredentialTrailers orders taken
  let unqueried := if queryCarrier || queryMismatch then removeQuery guarded else guarded
  let scrubbed :=
    if cookieCarrier then
      { unqueried with header := removeCookies (orders 7) unqueried.header }
    else unqueried
  if queryCarrier || queryMismatch || cookieCarrier || trailerCarrier then (scrubbed, none)
  else if !authorization.present then (scrubbed, some none)
  else if !authorization.single then (scrubbed, none)
  else
    match (parseBearer authorization.value).bind newBearerCredential with
    | none => (scrubbed, none)
    | some credential => (scrubbed, some (some credential))

/-! ## What extraction does -/

instance (header : Header) : Decidable (CookieCarrier header) :=
  decidable_of_iff _ (hasAccessTokenCookie_iff (.listed _) header)

instance (request : Request) : Decidable (TrailerNamed request) :=
  decidable_of_iff _ (hasCredentialTrailerDeclaration_iff (fun _ => .listed _) request)

def QueryRejected (request : Request) : Prop := QueryCarrier request ∨ QueryDivergence request

theorem queryRejected_iff :
    ((inspectQueryViews request).1 || (inspectQueryViews request).2) = true ↔
      QueryRejected request := by
  rw [Bool.or_eq_true, inspectQueryViews_carrier, inspectQueryViews_mismatch]
  rfl

instance (request : Request) : Decidable (QueryRejected request) :=
  decidable_of_iff _ (queryRejected_iff request)

/-- A credential trailer is present or declared, or was when a guard of this request looked. -/
def TrailerCarrier (request : Request) : Prop :=
  TrailerNamed request ∨ request.body.latched = true

/-- Some carrier other than the `Authorization` field, or two query views that differ. -/
def Rejected (request : Request) : Prop :=
  QueryRejected request ∨ CookieCarrier request.header ∨ TrailerCarrier request

theorem sameName_unique {name first second : Bytes} (hfirst : SameName name first)
    (hsecond : SameName name second) : SameName first second :=
  hfirst.symm.trans hsecond

/-- The request once its `Authorization` fields are taken. -/
def takenRequest (order : HeaderOrder) (request : Request) : Request :=
  { request with header := (takeAuthorization order request.header).1 }

theorem lookup_taken {request : Request} (hkey : ¬ SameName key (ascii "Authorization")) :
    (takenRequest order request).header.lookup key = request.header.lookup key := by
  rw [← isAuthorization_iff] at hkey
  exact (lookup_takeAuthorization order request.header key).trans (if_neg hkey)

theorem cookieCarrier_taken :
    CookieCarrier (takenRequest order request).header ↔ CookieCarrier request.header := by
  have hkey : ∀ {key}, SameName key (ascii "Cookie") → ¬ SameName key (ascii "Authorization") :=
    fun hcookie hname => absurd (sameName_unique hcookie hname) (by decide)
  constructor
  · rintro ⟨key, values, hlookup, hname, hvalue⟩
    rw [lookup_taken order (hkey hname)] at hlookup
    exact ⟨key, values, hlookup, hname, hvalue⟩
  · rintro ⟨key, values, hlookup, hname, hvalue⟩
    rw [← lookup_taken order (hkey hname)] at hlookup
    exact ⟨key, values, hlookup, hname, hvalue⟩

theorem trailerNamed_taken :
    TrailerNamed (takenRequest order request) ↔ TrailerNamed request := by
  refine or_congr Iff.rfl (exists_congr fun key => and_congr_right fun hname => ?_)
  have hkey : ¬ SameName key (ascii "Authorization") := fun hother =>
    absurd (sameName_unique hname hother) (by decide)
  unfold declaredNames
  rw [lookup_taken order hkey]

/-- The request that extraction leaves, in terms of the one it was given. -/
structure Extracted (before after : Request) : Prop where
  header : ∀ key, after.header.lookup key =
    if SameName key (ascii "Authorization") ∨
      CookieCarrier before.header ∧ SameName key (ascii "Cookie") then none
    else if (before.body.isGuarded = true ∨ TrailerNamed before) ∧
      SameName key (ascii "Trailer") then (before.header.lookup key).bind keptDeclarations
    else before.header.lookup key
  trailer : ∀ key, after.trailer.lookup key =
    if (before.body.isGuarded = true ∨ TrailerNamed before) ∧ CredentialName key then none
    else before.trailer.lookup key
  url : after.url =
    if QueryRejected before then
      before.url.map fun url => { url with rawQuery := [], forceQuery := false }
    else before.url
  requestURI : after.requestURI =
    if QueryRejected before then before.requestURI.takeWhile (· != 63) else before.requestURI
  form : after.form = if QueryRejected before then some ∅ else before.form
  postForm : after.postForm = if QueryRejected before then some ∅ else before.postForm
  transferEncoding : after.transferEncoding = before.transferEncoding

theorem lookup_removeCookies (key : Bytes) :
    (removeCookies order header).lookup key =
      if isCookie key then none else header.lookup key :=
  lookup_deleteWhere order isCookie header key

theorem scrubs_taken :
    scrubs orders (takenRequest (orders 0) request) = true ↔
      request.body.isGuarded = true ∨ TrailerNamed request := by
  rw [scrubs, Bool.or_eq_true, hasCredentialTrailerDeclaration_iff, trailerNamed_taken]
  rfl

/-- The two last removals. -/
def dropCarriers (order : HeaderOrder) (query cookie : Bool) (guarded : Request) : Request :=
  let unqueried := if query then removeQuery guarded else guarded
  if cookie then { unqueried with header := removeCookies order unqueried.header } else unqueried

section DropCarriers

variable (order : HeaderOrder) (query cookie : Bool) (guarded : Request)

theorem dropCarriers_header :
    (dropCarriers order query cookie guarded).header =
      if cookie then removeCookies order guarded.header else guarded.header := by
  cases query <;> cases cookie <;> rfl

theorem dropCarriers_kept :
    (dropCarriers order query cookie guarded).trailer = guarded.trailer ∧
      (dropCarriers order query cookie guarded).transferEncoding = guarded.transferEncoding := by
  cases query <;> cases cookie <;> exact ⟨rfl, rfl⟩

theorem dropCarriers_views :
    let dropped := dropCarriers order query cookie guarded
    (dropped.url = if query then
        guarded.url.map fun url => { url with rawQuery := [], forceQuery := false }
      else guarded.url) ∧
    (dropped.requestURI =
      if query then guarded.requestURI.takeWhile (· != 63) else guarded.requestURI) ∧
    (dropped.form = if query then some ∅ else guarded.form) ∧
    dropped.postForm = if query then some ∅ else guarded.postForm := by
  cases query <;> cases cookie <;> exact ⟨rfl, rfl, rfl, rfl⟩

end DropCarriers

theorem extractBearer_request :
    (extractBearer orders request).1 =
      let taken := takenRequest (orders 0) request
      dropCarriers (orders 7) ((inspectQueryViews taken).1 || (inspectQueryViews taken).2)
        (hasAccessTokenCookie (orders 1) taken.header)
        (protectCredentialTrailers orders taken).1 := by
  unfold extractBearer
  dsimp only
  split
  · rfl
  split
  · rfl
  · split
    · rfl
    · split <;> rfl

theorem extractBearer_extracted :
    Extracted request (extractBearer orders request).1 := by
  have hprotect := (protectCredentialTrailers_spec orders (takenRequest (orders 0) request)).1
  have hquery : _ ↔ QueryRejected request := queryRejected_iff (takenRequest (orders 0) request)
  have hcookie := (hasAccessTokenCookie_iff (orders 1) _).trans
    (cookieCarrier_taken (orders 0) request)
  have hscrubs := scrubs_taken orders request
  rw [extractBearer_request]
  dsimp only
  generalize hviews : ((inspectQueryViews _).1 || (inspectQueryViews _).2) = query at hquery ⊢
  generalize (protectCredentialTrailers orders _).1 = guarded at hprotect ⊢
  generalize hasAccessTokenCookie (orders 1) _ = cookie at hcookie ⊢
  obtain ⟨htrailer, hencoding⟩ := dropCarriers_kept (orders 7) query cookie guarded
  obtain ⟨hurl, hrequestURI, hform, hpostForm⟩ := dropCarriers_views (orders 7) query cookie guarded
  refine ⟨fun key => ?_, fun key => ?_, ?_, ?_, ?_, ?_, hencoding.trans hprotect.transferEncoding⟩
  · have htaken : (takenRequest (orders 0) request).header.lookup key = _ :=
      lookup_takeAuthorization (orders 0) request.header key
    have hguarded := hprotect.header key
    rw [htaken] at hguarded
    simp only [Bool.and_eq_true, hscrubs, isTrailer_iff, isAuthorization_iff] at hguarded
    rw [dropCarriers_header]
    simp only [hcookie, apply_ite (AList.lookup key), lookup_removeCookies, isCookie_iff, hguarded]
    split_ifs <;> simp_all
  · have hguarded := hprotect.trailer key
    simp only [Bool.and_eq_true, hscrubs, isCredentialTrailerName_iff] at hguarded
    exact (congrArg _ htrailer).trans hguarded
  · simp only [hurl, hprotect.url, hquery]
    rfl
  · simp only [hrequestURI, hprotect.requestURI, hquery]
    rfl
  · simp only [hform, hprotect.form, hquery]
    rfl
  · simp only [hpostForm, hprotect.postForm, hquery]
    rfl

theorem rejected_iff (orders : Nat → HeaderOrder) (request : Request) :
    let taken := takenRequest (orders 0) request
    ((inspectQueryViews taken).1 || (inspectQueryViews taken).2 ||
        hasAccessTokenCookie (orders 1) taken.header ||
        (protectCredentialTrailers orders taken).2) = true ↔ Rejected request := by
  have hquery : _ ↔ QueryRejected request := queryRejected_iff (takenRequest (orders 0) request)
  have htrailer := (protectCredentialTrailers_spec orders (takenRequest (orders 0) request)).2
  intro taken
  rw [Bool.or_eq_true, Bool.or_eq_true, hquery, hasAccessTokenCookie_iff, cookieCarrier_taken,
    htrailer, Bool.or_eq_true, hasCredentialTrailerDeclaration_iff, trailerNamed_taken, or_assoc,
    or_comm (a := _ = true)]
  rfl

theorem extractBearer_answer :
    (Rejected request → (extractBearer orders request).2 = none) ∧
      (¬ Rejected request → (extractBearer orders request).2 =
        let authorization := (takeAuthorization (orders 0) request.header).2
        if !authorization.present then some none
        else if !authorization.single then none
        else ((parseBearer authorization.value).bind newBearerCredential).map some) := by
  have hrejected := rejected_iff orders request
  dsimp only [takenRequest] at hrejected
  unfold extractBearer
  dsimp only
  refine ⟨fun h => by rw [if_pos (hrejected.mpr h)], fun h => ?_⟩
  rw [if_neg (mt hrejected.mp h)]
  generalize (parseBearer _).bind newBearerCredential = parsed
  cases parsed <;> split_ifs <;> rfl

theorem noAuthorization_not_one {header : Header} (h : NoAuthorization header) (value : Bytes) :
    ¬ OneAuthorization header value := by
  rintro ⟨key, hname, hlookup, -⟩
  exact h key _ hlookup hname

theorem extractBearer_credential
    (credential : BearerCredential) :
    (extractBearer orders request).2 = some (some credential) ↔
      ¬ Rejected request ∧ ∃ value, OneAuthorization request.header value ∧
        BearerValue value credential.token := by
  obtain ⟨hinvalid, hanswer⟩ := extractBearer_answer orders request
  have habsent := takeAuthorization_absent (orders 0) request.header
  have hsingle := takeAuthorization_single (orders 0) request.header
  by_cases hrejected : Rejected request
  · simp [hinvalid hrejected, hrejected]
  rw [hanswer hrejected]
  simp only [hrejected, not_false_eq_true, true_and, ← hsingle, ← parseBearer_iff]
  split_ifs with hpresent hmany
  · have hnone := habsent.mp (by simpa using hpresent)
    simp only [Option.some.injEq, reduceCtorEq, false_iff, not_exists, not_and]
    exact fun value hone => absurd ((hsingle value).mp hone) (noAuthorization_not_one hnone value)
  · simp only [Bool.not_eq_true'] at hmany
    simp [hmany]
  · simp only [Bool.not_eq_true', Bool.not_eq_false] at hmany
    simp only [hmany, true_and, exists_eq_left']
    generalize (parseBearer _).bind newBearerCredential = parsed
    simp

theorem extractBearer_absent :
    (extractBearer orders request).2 = some none ↔
      ¬ Rejected request ∧ NoAuthorization request.header := by
  obtain ⟨hinvalid, hanswer⟩ := extractBearer_answer orders request
  have habsent := takeAuthorization_absent (orders 0) request.header
  by_cases hrejected : Rejected request
  · simp [hinvalid hrejected, hrejected]
  rw [hanswer hrejected]
  simp only [hrejected, not_false_eq_true, true_and, ← habsent]
  generalize (parseBearer _).bind newBearerCredential = parsed
  split_ifs <;> simp_all

/-- One extraction: the carriers that are gone, the answer, and what is kept. -/
structure BearerExtraction (before after : Request) (answer : BearerAnswer) : Prop where
  authorization : NoAuthorization after.header
  query : QueryCarrier before ∨ QueryDivergence before →
    (∀ url, after.url = some url → url.rawQuery = [] ∧ url.forceQuery = false) ∧
      splitRequestURIQuery after.requestURI = none ∧ after.form = some ∅ ∧ after.postForm = some ∅
  cookie : CookieCarrier before.header →
    ∀ key values, after.header.lookup key = some values → ¬ SameName key (ascii "Cookie")
  trailer : TrailerCarrier before →
    (∀ key, after.trailer.lookup key =
        if CredentialName key then none else before.trailer.lookup key) ∧
      ∀ key, SameName key (ascii "Trailer") → declaredNames after.header key =
        (declaredNames before.header key).filter fun name => ¬ CredentialName name
  credential : ∀ credential, answer = some (some credential) ↔
    ¬ Rejected before ∧ ∃ value, OneAuthorization before.header value ∧
      BearerValue value credential.token
  absent : answer = some none ↔ ¬ Rejected before ∧ NoAuthorization before.header
  headers : ¬ Rejected before → ∀ key, ¬ SameName key (ascii "Authorization") →
    -- a guard that looks again drops a key that has no values
    (before.body.isGuarded = true → before.header.lookup key ≠ some []) →
    after.header.lookup key = before.header.lookup key
  views : ¬ Rejected before → after.url = before.url ∧ after.requestURI = before.requestURI ∧
    after.form = before.form ∧ after.postForm = before.postForm
  trailers : ¬ Rejected before → (∀ key, after.trailer.lookup key = before.trailer.lookup key) ∧
    after.transferEncoding = before.transferEncoding

/-- Two requests that no reader tells apart by their maps. -/
structure SameRequest (first second : Request) : Prop where
  header : ∀ key, first.header.lookup key = second.header.lookup key
  trailer : ∀ key, first.trailer.lookup key = second.trailer.lookup key
  url : first.url = second.url
  requestURI : first.requestURI = second.requestURI
  form : first.form = second.form
  postForm : first.postForm = second.postForm
  transferEncoding : first.transferEncoding = second.transferEncoding

theorem Extracted.same {before first second : Request} (hfirst : Extracted before first)
    (hsecond : Extracted before second) : SameRequest first second where
  header key := (hfirst.header key).trans (hsecond.header key).symm
  trailer key := (hfirst.trailer key).trans (hsecond.trailer key).symm
  url := hfirst.url.trans hsecond.url.symm
  requestURI := hfirst.requestURI.trans hsecond.requestURI.symm
  form := hfirst.form.trans hsecond.form.symm
  postForm := hfirst.postForm.trans hsecond.postForm.symm
  transferEncoding := hfirst.transferEncoding.trans hsecond.transferEncoding.symm

theorem Extracted.declaredNames {before after : Request} (h : Extracted before after)
    (hscrubs : before.body.isGuarded = true ∨ TrailerNamed before)
    (hkey : SameName key (ascii "Trailer")) :
    declaredNames after.header key =
      (declaredNames before.header key).filter fun name => ¬ CredentialName name := by
  have hother : ¬ (SameName key (ascii "Authorization") ∨
      CookieCarrier before.header ∧ SameName key (ascii "Cookie")) := by
    rintro (hname | ⟨-, hname⟩)
    · exact absurd (sameName_unique hkey hname) (by decide)
    · exact absurd (sameName_unique hkey hname) (by decide)
  have hdecide : (fun name => decide ¬ CredentialName name) =
      fun name => !isCredentialTrailerName name := by
    funext name
    rw [Bool.eq_iff_iff]
    simp [← isCredentialTrailerName_iff]
  unfold Bearer.declaredNames
  rw [h.header key, if_neg hother, if_pos ⟨hscrubs, hkey⟩, hdecide]
  cases before.header.lookup key with
  | none => rfl
  | some values =>
    change List.flatMap trailerNames ((keptDeclarations values).getD []) = _
    rw [getD_keptDeclarations]
    exact flatMap_keptDeclaration values

theorem guarded_of_latched {body : Body} (h : body.latched = true) : body.isGuarded = true := by
  cases body with
  | guarded => rfl
  | _ => cases h

/-- Without a carrier a repeated look changes no declaration. -/
theorem Extracted.headers {before after : Request} (h : Extracted before after)
    (hquiet : ¬ Rejected before) (hkey : ¬ SameName key (ascii "Authorization"))
    (hvalues : before.body.isGuarded = true → before.header.lookup key ≠ some []) :
    after.header.lookup key = before.header.lookup key := by
  simp only [Rejected, TrailerCarrier, not_or] at hquiet
  obtain ⟨-, hcookie, htrailer, -⟩ := hquiet
  rw [h.header key, if_neg (by tauto)]
  split_ifs with hscrubs
  · obtain ⟨hguarded | hnamed, hname⟩ := hscrubs
    · cases hlookup : before.header.lookup key with
      | none => rfl
      | some values =>
        have hnonempty : values ≠ [] := fun hempty => hvalues hguarded (hempty ▸ hlookup)
        refine keptDeclarations_of_none hnonempty (Bool.eq_false_iff.mpr fun hdeclares => ?_)
        have hnames := (declares_iff before.header key).mpr ⟨values, hlookup, hdeclares⟩
        exact htrailer (.inr ⟨key, hname, hnames⟩)
    · exact absurd hnamed htrailer
  · rfl

theorem Extracted.trailers {before after : Request} (h : Extracted before after)
    (hquiet : ¬ Rejected before) (key : Bytes) :
    after.trailer.lookup key = before.trailer.lookup key := by
  simp only [Rejected, TrailerCarrier, not_or] at hquiet
  rw [h.trailer key]
  split_ifs with hscrubs
  · cases hlookup : before.trailer.lookup key with
    | none => rfl
    | some values => exact absurd (.inl ⟨key, values, hlookup, hscrubs.2⟩) hquiet.2.2.1
  · rfl

instance (request : Request) : Decidable (Rejected request) :=
  decidable_of_iff _ (rejected_iff (fun _ => .listed _) request)

/-- A request with a body and a `Trailer` key without values. -/
def emptyDeclaration : Request where
  header := AList.singleton (ascii "Trailer") []
  trailer := ∅
  url := some ⟨[], false⟩
  requestURI := ascii "/"
  form := none
  postForm := none
  transferEncoding := [ascii "chunked"]
  body := .plain

end Veer.Bearer
