import Veer.Calendar
import Veer.JsonTree
import Veer.ReconcileSafety
import Veer.StepMachine

/-!
# The fields of a resource envelope

The checks and normal forms of the fields of an envelope, as `resource.go` has them. A map of labels
is kept by key, so that two maps with the same entries are one value; an instant is the number of
nanoseconds since Go's zero time.
-/
namespace Veer.Envelope

open JsonTree
open StepMachine (ensure ensure_ok bind_ok)
open Reconcile (ID validID idRune millisecond hour endOfYear9999)

/-- A Go string; `none` is one that is not valid UTF-8, which every check here refuses. -/
abbrev GoString := Option String

inductive Failure
  | generationOverflow
  | tooLarge (size : Option Nat)
  | message (text : String)
  | label (key : GoString) (text : String)
  | json (cause : Option ScanError)
  | codec (text : String)
  | within (context : String) (cause : Failure)
  deriving DecidableEq, Repr

def maxCanonicalBytes : Nat := 262144
def limits : Limits := ⟨64, 50000⟩
def maxLabels : Nat := 64
def maxDisplayNameRunes : Nat := 128
def maxLabelValueRunes : Nat := 256
def maxInt64 : Int := 2 ^ 63 - 1

/-! ## Checks that stop at the first failure -/

def wrap {α : Type} (context : String) : Except Failure α → Except Failure α
  | .error failure => .error (.within context failure)
  | .ok value => .ok value

theorem wrap_ok {α : Type} {context : String} {outcome : Except Failure α} {value : α} :
    wrap context outcome = .ok value ↔ outcome = .ok value := by
  cases outcome <;> simp [wrap]

/-! ## Fields -/

/-- A text that one pattern has to match. -/
def acceptText (valid : String → Bool) (failure : Failure) (value : GoString) : Except Failure String :=
  match value with
  | some text => if valid text then .ok text else .error failure
  | none => .error failure

theorem acceptText_ok {valid : String → Bool} {failure : Failure} {value : GoString} {text : String} :
    acceptText valid failure value = .ok text ↔ value = some text ∧ valid text = true := by
  cases value with
  | none => simp [acceptText]
  | some =>
    unfold acceptText
    dsimp only
    split_ifs with hvalid
    · simp only [Except.ok.injEq, Option.some.injEq]
      exact ⟨fun h => ⟨h, h ▸ hvalid⟩, And.left⟩
    · simp only [Option.some.injEq, false_iff, not_and]
      rintro rfl
      exact hvalid

/-- `[1-9][0-9]*` and what follows it. -/
def positiveNumber : List Char → Option (List Char)
  | c :: rest => if c.isDigit && c != '0' then some (rest.dropWhile Char.isDigit) else none
  | [] => none

/-- `^v[1-9][0-9]*((alpha|beta)[1-9][0-9]*)?$` -/
def validAPIVersion (value : String) : Bool :=
  match value.toList with
  | 'v' :: rest =>
    match positiveNumber rest with
    | some [] => true
    | some ('a' :: 'l' :: 'p' :: 'h' :: 'a' :: stage) => positiveNumber stage == some []
    | some ('b' :: 'e' :: 't' :: 'a' :: stage) => positiveNumber stage == some []
    | _ => false
  | _ => false

/-- `^[A-Z][A-Za-z0-9]{0,63}$` -/
def validKind (value : String) : Bool :=
  match value.toList with
  | c :: cs => c.isUpper && cs.all Char.isAlphanum && decide (cs.length ≤ 63)
  | [] => false

/-- `^[a-z][a-z0-9.-]{0,62}$` -/
def validLabelKey (value : String) : Bool :=
  match value.toList with
  | c :: cs =>
    c.isLower && cs.all (fun c => c.isLower || c.isDigit || c == '.' || c == '-') &&
      decide (cs.length ≤ 62)
  | [] => false

/-- `^[A-Za-z0-9_-]{1,128}$` -/
def validResourceVersion (value : String) : Bool :=
  value.toList.all idRune && decide (1 ≤ value.length) && decide (value.length ≤ 128)

def validateAPIVersion : GoString → Except Failure String :=
  acceptText validAPIVersion (.message "apiVersion must be a version label such as v1alpha1")

def validateKind : GoString → Except Failure String :=
  acceptText validKind (.message
    "kind must start with an uppercase letter and contain at most 64 alphanumeric characters")

def validateID (value : GoString) (field : String) : Except Failure ID :=
  acceptText validID (.message (field ++ " must be a 16..128 character opaque ID")) value

def validateResourceVersion : GoString → Except Failure String :=
  acceptText validResourceVersion (.message
    "metadata.resourceVersion must be a 1..128 character opaque version")

def validDisplayName (value : String) : Bool :=
  decide (1 ≤ value.length) && decide (value.length ≤ maxDisplayNameRunes)

/-- Unlike the patterns this check tells a text that is not UTF-8 from one of the wrong length. -/
def validateDisplayName (value : GoString) : Except Failure String :=
  match value with
  | none => .error (.message "metadata.displayName must be valid UTF-8")
  | some text =>
    acceptText validDisplayName (.message "metadata.displayName must contain 1..128 characters")
      (some text)

theorem validateDisplayName_ok {value : GoString} {text : String} :
    validateDisplayName value = .ok text ↔ value = some text ∧ validDisplayName text = true := by
  cases value with
  | none => simp [validateDisplayName]
  | some given =>
    change acceptText validDisplayName _ (some given) = _ ↔ _
    exact acceptText_ok

def validateParent : Option GoString → Except Failure (Option ID)
  | none => .ok none
  | some value => (validateID value "metadata.parent").map some

theorem validateParent_some (parent : Option ID) {result : Option ID}
    (h : validateParent (parent.map some) = .ok result) : result = parent := by
  cases parent with
  | none => exact (Except.ok.inj h).symm
  | some id =>
    simp only [Option.map_some, validateParent] at h
    cases hid : validateID (some id) "metadata.parent" with
    | error =>
      rw [hid] at h
      cases h
    | ok =>
      rw [hid] at h
      obtain ⟨hsome, -⟩ := acceptText_ok.mp hid
      rw [Option.some.inj hsome]
      exact (Except.ok.inj h).symm

/-! ## Labels -/

/-- A map of labels: its entries by key. -/
structure Labels where
  entries : List (String × String)
  sorted : entries.Pairwise fun left right => left.1 < right.1
  deriving DecidableEq

def Labels.empty : Labels := ⟨[], .nil⟩

/-- `labels[key] = value` -/
def insertEntry (key value : String) : List (String × String) → List (String × String)
  | [] => [(key, value)]
  | entry :: entries =>
    if key < entry.1 then (key, value) :: entry :: entries
    else if key = entry.1 then (key, value) :: entries
    else entry :: insertEntry key value entries

variable {entries : List (String × String)}
variable {entry : String × String}

theorem mem_insertEntry {key value : String} (h : entry ∈ insertEntry key value entries) :
    entry = (key, value) ∨ entry ∈ entries := by
  induction entries with
  | nil => exact .inl (List.mem_singleton.mp h)
  | cons first entries ih =>
    unfold insertEntry at h
    split_ifs at h
    · exact List.mem_cons.mp h
    · exact (List.mem_cons.mp h).imp_right (List.mem_cons_of_mem _)
    · rcases List.mem_cons.mp h with rfl | hrest
      · exact .inr List.mem_cons_self
      · exact (ih hrest).imp_right (List.mem_cons_of_mem _)

theorem insertEntry_sorted (key value : String)
    (h : entries.Pairwise fun left right => left.1 < right.1) :
    (insertEntry key value entries).Pairwise fun left right => left.1 < right.1 := by
  induction entries with
  | nil => exact List.pairwise_singleton _ _
  | cons first entries ih =>
    obtain ⟨hfirst, hrest⟩ := List.pairwise_cons.mp h
    unfold insertEntry
    split_ifs with hless hsame
    · refine List.pairwise_cons.mpr ⟨fun entry hentry => ?_, h⟩
      rcases List.mem_cons.mp hentry with rfl | hentry
      · exact hless
      · exact hless.trans (hfirst entry hentry)
    · exact List.pairwise_cons.mpr ⟨fun entry hentry => hsame ▸ hfirst entry hentry, hrest⟩
    · refine List.pairwise_cons.mpr ⟨fun entry hentry => ?_, ih hrest⟩
      rcases mem_insertEntry hentry with rfl | hentry
      · exact lt_of_le_of_ne (not_lt.mp hless) (Ne.symm hsame)
      · exact hfirst entry hentry

def Labels.insert (labels : Labels) (key value : String) : Labels :=
  ⟨insertEntry key value labels.entries, insertEntry_sorted key value labels.sorted⟩

def Labels.lookup (labels : Labels) (key : String) : Option String := labels.entries.lookup key

/-- The entries of a Go map in the order in which its loop visits them. -/
abbrev LabelMap := List (GoString × GoString)

def validateLabel (key value : GoString) : Except Failure (String × String) :=
  match key with
  | none => .error (.label none "has an invalid format")
  | some name =>
    if !validLabelKey name then .error (.label key "has an invalid format")
    else
      match value with
      | none => .error (.label key "must be valid UTF-8 with at most 256 characters")
      | some text =>
        if maxLabelValueRunes < text.length then
          .error (.label key "must be valid UTF-8 with at most 256 characters")
        else .ok (name, text)

def copyLabels : Labels → LabelMap → Except Failure Labels
  | result, [] => .ok result
  | result, (key, value) :: labels =>
    match validateLabel key value with
    | .error failure => .error failure
    | .ok (name, text) => copyLabels (result.insert name text) labels

def validateLabels (labels : LabelMap) : Except Failure Labels :=
  if maxLabels < labels.length then
    .error (.message "metadata.labels must contain at most 64 entries")
  else copyLabels .empty labels

def labelsEqual (left right : Labels) : Bool :=
  left.entries.length == right.entries.length &&
    left.entries.all fun entry => right.lookup entry.1 == some entry.2

/-- The map as another function is given it. -/
def Labels.toMap (labels : Labels) : LabelMap :=
  labels.entries.map fun entry => (some entry.1, some entry.2)

theorem insertEntry_append {key value : String} (h : ∀ entry ∈ entries, entry.1 < key) :
    insertEntry key value entries = entries ++ [(key, value)] := by
  induction entries with
  | nil => rfl
  | cons first entries ih =>
    have hfirst := h first List.mem_cons_self
    unfold insertEntry
    rw [if_neg hfirst.not_gt, if_neg hfirst.ne', List.cons_append,
      ih fun entry hentry => h entry (List.mem_cons_of_mem _ hentry)]

theorem validateLabel_some {name text : String}
    (h : validateLabel (some name) (some text) = .ok entry) : entry = (name, text) := by
  unfold validateLabel at h
  dsimp only at h
  split_ifs at h
  exact (Except.ok.inj h).symm

theorem copyLabels_toMap (before : Labels) {rest : List (String × String)} {result : Labels}
    (hsorted : (before.entries ++ rest).Pairwise fun left right => left.1 < right.1)
    (h : copyLabels before (rest.map fun entry => (some entry.1, some entry.2)) = .ok result) :
    result.entries = before.entries ++ rest := by
  induction rest generalizing before with
  | nil =>
    rw [List.append_nil, ← Except.ok.inj h]
  | cons entry rest ih =>
    rw [List.map_cons, copyLabels] at h
    split at h
    · cases h
    rename_i name text hlabel
    cases validateLabel_some hlabel
    have hbefore : ∀ other ∈ before.entries, other.1 < entry.1 := fun other hother =>
      (List.pairwise_append.mp hsorted).2.2 other hother entry List.mem_cons_self
    have hinsert : (before.insert entry.1 entry.2).entries = before.entries ++ [entry] :=
      insertEntry_append hbefore
    have hrest := ih (before.insert entry.1 entry.2)
      (by rw [hinsert, List.append_assoc]; exact hsorted) h
    rw [hrest, hinsert, List.append_assoc]
    rfl

theorem validateLabels_toMap {labels result : Labels}
    (h : validateLabels labels.toMap = .ok result) : result = labels := by
  unfold validateLabels at h
  split_ifs at h
  have hentries := copyLabels_toMap .empty labels.sorted h
  cases result
  cases labels
  simp only [Labels.mk.injEq]
  exact hentries

theorem mem_of_lookup {key value : String} (h : entries.lookup key = some value) :
    (key, value) ∈ entries := by
  induction entries with
  | nil => cases h
  | cons first entries ih =>
    rw [List.lookup_cons] at h
    split at h
    · rename_i hkey
      obtain ⟨name, text⟩ := first
      obtain rfl : key = name := beq_iff_eq.mp hkey
      obtain rfl : text = value := Option.some.inj h
      exact List.mem_cons_self
    · exact List.mem_cons_of_mem _ (ih h)

theorem lookup_of_mem (hsorted : entries.Pairwise fun left right => left.1 < right.1)
    (h : entry ∈ entries) : entries.lookup entry.1 = some entry.2 := by
  induction entries with
  | nil => cases h
  | cons first entries ih =>
    obtain ⟨hfirst, hrest⟩ := List.pairwise_cons.mp hsorted
    rw [List.lookup_cons]
    rcases List.mem_cons.mp h with rfl | h
    · simp
    · have hne : (entry.1 == first.1) = false := beq_eq_false_iff_ne.mpr (hfirst entry h).ne'
      rw [hne]
      exact ih hrest h

theorem labelsEqual_iff (left right : Labels) : labelsEqual left right = true ↔ left = right := by
  unfold labelsEqual Labels.lookup
  rw [Bool.and_eq_true, beq_iff_eq, List.all_eq_true]
  constructor
  · rintro ⟨hlength, hall⟩
    have hnodup : ∀ labels : Labels, labels.entries.Nodup := fun labels =>
      labels.sorted.imp fun hlt heq => absurd (congrArg Prod.fst heq) hlt.ne
    have hsubset : left.entries ⊆ right.entries := fun entry hentry =>
      mem_of_lookup (by simpa using hall entry hentry)
    have hperm : left.entries.Perm right.entries :=
      ((hnodup left).subperm hsubset).perm_of_length_le hlength.ge
    have hentries : left.entries = right.entries :=
      hperm.eq_of_pairwise (fun a b _ _ hab hba => absurd hab hba.not_gt) left.sorted right.sorted
    cases left
    cases right
    simpa using hentries
  · rintro rfl
    refine ⟨rfl, fun entry hentry => ?_⟩
    rw [lookup_of_mem left.sorted hentry, beq_iff_eq]

/-! ## Times -/

/-- The first instant of year 0, which is a leap year. -/
def startOfYear0 : Int := -366 * (24 * hour)

def normalizeTimestamp (value : Int) (field : String) : Except Failure Int :=
  if value = 0 then .error (.message (field ++ " is required"))
  else
    let truncated := value - value % millisecond
    if truncated < startOfYear0 ∨ endOfYear9999 ≤ truncated then
      .error (.message (field ++ " year must be in 0000..9999"))
    else .ok truncated

/-- Instants with a text: whole milliseconds of a year in four digits. -/
def CanonicalTime (value : Int) : Prop :=
  value % millisecond = 0 ∧ startOfYear0 ≤ value ∧ value < endOfYear9999

theorem normalizeTimestamp_canonical {value : Int} {field : String} {result : Int}
    (h : normalizeTimestamp value field = .ok result) : CanonicalTime result := by
  unfold normalizeTimestamp at h
  dsimp only at h
  split_ifs at h with hzero hrange
  cases h
  unfold CanonicalTime millisecond at *
  omega

def formatTimestamp (value : Int) : String :=
  .ofList (Calendar.formatTimestamp ((value - startOfYear0) / millisecond).toNat)

/-- The check of the year after parsing never fails: the text has four digits for it. -/
def parseTimestamp (text field : String) : Except Failure Int :=
  match Calendar.parseTimestamp text.toList with
  | none => .error (.message (field ++ " must use UTC RFC 3339 with exact milliseconds"))
  | some count => .ok (count * millisecond + startOfYear0)

theorem parseTimestamp_formatTimestamp {value : Int} (h : CanonicalTime value) (field : String) :
    parseTimestamp (formatTimestamp value) field = .ok value := by
  obtain ⟨hwhole, hstart, hend⟩ := h
  have hlast : Calendar.yearStart 10000 * Calendar.dayMilliseconds = 315569520000000 := rfl
  have hcount : ((value - startOfYear0) / millisecond).toNat <
      Calendar.yearStart 10000 * Calendar.dayMilliseconds := by
    rw [hlast]
    unfold startOfYear0 endOfYear9999 hour Reconcile.second millisecond at *
    omega
  unfold parseTimestamp formatTimestamp
  rw [String.toList_ofList, Calendar.parseTimestamp_formatTimestamp hcount]
  simp only [Except.ok.injEq]
  unfold startOfYear0 endOfYear9999 hour Reconcile.second millisecond at *
  omega

end Veer.Envelope
