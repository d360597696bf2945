import Mathlib
import Veer.JsonText

/-!
# JSON trees

A tree is what a decoder reads off a text, with the members of an object in the order of the text
and a name that is written twice there twice. The scan bounds depth and size and refuses a second
member of one name. The normal form has 64-bit integers for numbers and members sorted by name.
A library writes trees as texts and reads them; what it has written it reads back.
-/
namespace Veer.JsonTree

/-- A number as it is written. One with a fraction or an exponent is never looked into. -/
inductive Numeral
  | integer (negative : Bool) (magnitude : Nat)
  | fractional
  deriving DecidableEq, Repr

inductive Json
  | null
  | bool (value : Bool)
  | number (literal : Numeral)
  | string (value : String)
  | array (items : List Json)
  | object (members : List (String × Json))

/-! ## Equality -/

mutual

def Json.beq : Json → Json → Bool
  | .null, .null => true
  | .bool left, .bool right => left == right
  | .number left, .number right => left == right
  | .string left, .string right => left == right
  | .array left, .array right => beqItems left right
  | .object left, .object right => beqMembers left right
  | _, _ => false

def beqItems : List Json → List Json → Bool
  | [], [] => true
  | left :: lefts, right :: rights => left.beq right && beqItems lefts rights
  | _, _ => false

def beqMembers : List (String × Json) → List (String × Json) → Bool
  | [], [] => true
  | (name, left) :: lefts, (other, right) :: rights =>
    name == other && left.beq right && beqMembers lefts rights
  | _, _ => false

end

mutual

theorem Json.beq_iff (left right : Json) : left.beq right = true ↔ left = right := by
  cases left with
  | array lefts =>
    cases right with
    | array rights => simp [Json.beq, beqItems_iff lefts rights]
    | _ => simp [Json.beq]
  | object lefts =>
    cases right with
    | object rights => simp [Json.beq, beqMembers_iff lefts rights]
    | _ => simp [Json.beq]
  | _ => cases right <;> simp [Json.beq]

theorem beqItems_iff (lefts rights : List Json) :
    beqItems lefts rights = true ↔ lefts = rights := by
  match lefts, rights with
  | [], [] | [], _ :: _ | _ :: _, [] => simp [beqItems]
  | left :: lefts, right :: rights =>
    simp [beqItems, left.beq_iff right, beqItems_iff lefts rights]

theorem beqMembers_iff (lefts rights : List (String × Json)) :
    beqMembers lefts rights = true ↔ lefts = rights := by
  match lefts, rights with
  | [], [] | [], _ :: _ | _ :: _, [] => simp [beqMembers]
  | (name, left) :: lefts, (other, right) :: rights =>
    simp [beqMembers, left.beq_iff right, beqMembers_iff lefts rights]

end

instance : DecidableEq Json := fun left right => decidable_of_iff _ (left.beq_iff right)

/-! ## The scan -/

structure Limits where
  depth : Nat
  nodes : Nat

inductive ScanError
  | depth | nodes
  | duplicate (name : String)
  deriving DecidableEq, Repr

variable (limits : Limits)

mutual

/-- The number of nodes that have been read after a tree at this depth. -/
def Json.scan (depth nodes : Nat) (tree : Json) : Except ScanError Nat :=
  if limits.depth < depth then .error .depth
  else if limits.nodes < nodes + 1 then .error .nodes
  else
    match tree with
    | .object members => scanMembers (depth + 1) (nodes + 1) [] members
    | .array items => scanItems (depth + 1) (nodes + 1) items
    | _ => .ok (nodes + 1)

def scanItems (depth nodes : Nat) : List Json → Except ScanError Nat
  | [] => .ok nodes
  | item :: items =>
    match item.scan depth nodes with
    | .error err => .error err
    | .ok nodes => scanItems depth nodes items

def scanMembers (depth nodes : Nat) (seen : List String) :
    List (String × Json) → Except ScanError Nat
  | [] => .ok nodes
  | (name, value) :: members =>
    if name ∈ seen then .error (.duplicate name)
    else
      match value.scan depth nodes with
      | .error err => .error err
      | .ok nodes => scanMembers depth nodes (name :: seen) members

end

theorem scanItems_cons_ok {depth nodes count : Nat} {item : Json} {items : List Json} :
    scanItems limits depth nodes (item :: items) = .ok count ↔
      ∃ middle, item.scan limits depth nodes = .ok middle ∧
        scanItems limits depth middle items = .ok count := by
  rw [scanItems]
  cases item.scan limits depth nodes <;> simp

variable {members : List (String × Json)} {seen : List String}

theorem scanMembers_cons_ok {depth nodes count : Nat} {name : String} {value : Json} :
    scanMembers limits depth nodes seen ((name, value) :: members) = .ok count ↔
      name ∉ seen ∧ ∃ middle, value.scan limits depth nodes = .ok middle ∧
        scanMembers limits depth middle (name :: seen) members = .ok count := by
  rw [scanMembers]
  split_ifs with hseen
  · simp [hseen]
  · cases value.scan limits depth nodes <;> simp [hseen]

mutual

theorem Json.scan_mono {depth nodes count : Nat} (tree : Json)
    (h : tree.scan limits depth nodes = .ok count) {depth' nodes' : Nat} (hdepth : depth' ≤ depth)
    (hnodes : nodes' ≤ nodes) :
    ∃ count', count' ≤ count ∧ tree.scan limits depth' nodes' = .ok count' := by
  rw [Json.scan.eq_def] at h ⊢
  split_ifs at h with hdeep hmany
  rw [if_neg (by omega), if_neg (by omega)]
  have hdepth : depth' + 1 ≤ depth + 1 := by omega
  have hnodes : nodes' + 1 ≤ nodes + 1 := by omega
  cases tree with
  | array items => exact scanItems_mono items h hdepth hnodes
  | object members => exact scanMembers_mono members h hdepth hnodes
  | _ =>
    simp only [Except.ok.injEq] at h
    exact ⟨nodes' + 1, by omega, rfl⟩

theorem scanItems_mono {depth nodes count : Nat} (items : List Json)
    (h : scanItems limits depth nodes items = .ok count) {depth' nodes' : Nat}
    (hdepth : depth' ≤ depth) (hnodes : nodes' ≤ nodes) :
    ∃ count', count' ≤ count ∧ scanItems limits depth' nodes' items = .ok count' := by
  match items with
  | [] =>
    rw [scanItems, Except.ok.injEq] at h
    exact ⟨nodes', by omega, rfl⟩
  | item :: items =>
    obtain ⟨middle, hitem, hrest⟩ := (scanItems_cons_ok limits).mp h
    obtain ⟨middle', hmiddle, hitem'⟩ := item.scan_mono hitem hdepth hnodes
    obtain ⟨count', hcount, hrest'⟩ := scanItems_mono items hrest hdepth hmiddle
    exact ⟨count', hcount, (scanItems_cons_ok limits).mpr ⟨middle', hitem', hrest'⟩⟩

theorem scanMembers_mono {depth nodes count : Nat} {seen : List String}
    (members : List (String × Json)) (h : scanMembers limits depth nodes seen members = .ok count)
    {depth' nodes' : Nat} (hdepth : depth' ≤ depth) (hnodes : nodes' ≤ nodes) :
    ∃ count', count' ≤ count ∧ scanMembers limits depth' nodes' seen members = .ok count' := by
  match members with
  | [] =>
    rw [scanMembers, Except.ok.injEq] at h
    exact ⟨nodes', by omega, rfl⟩
  | (name, value) :: members =>
    obtain ⟨hseen, middle, hvalue, hrest⟩ := (scanMembers_cons_ok limits).mp h
    obtain ⟨middle', hmiddle, hvalue'⟩ := value.scan_mono hvalue hdepth hnodes
    obtain ⟨count', hcount, hrest'⟩ := scanMembers_mono members hrest hdepth hmiddle
    exact ⟨count', hcount, (scanMembers_cons_ok limits).mpr ⟨hseen, middle', hvalue', hrest'⟩⟩

end

theorem scanMembers_mem {depth nodes count : Nat}
    (h : scanMembers limits depth nodes seen members = .ok count) {member : String × Json}
    (hmember : member ∈ members) : ∃ alone, member.2.scan limits 0 0 = .ok alone := by
  induction members generalizing nodes seen with
  | nil => cases hmember
  | cons first members ih =>
    obtain ⟨name, value⟩ := first
    obtain ⟨-, middle, hvalue, hrest⟩ := (scanMembers_cons_ok limits).mp h
    rcases List.mem_cons.mp hmember with rfl | hmember
    · obtain ⟨alone, -, halone⟩ := value.scan_mono limits hvalue (Nat.zero_le _) (Nat.zero_le _)
      exact ⟨alone, halone⟩
    · exact ih hrest hmember

theorem Json.scan_member {count : Nat} (h : (Json.object members).scan limits 0 0 = .ok count)
    {member : String × Json} (hmember : member ∈ members) :
    ∃ alone, member.2.scan limits 0 0 = .ok alone := by
  rw [Json.scan] at h
  split_ifs at h
  exact scanMembers_mem limits h hmember

theorem scanMembers_nodup {depth nodes count : Nat}
    (h : scanMembers limits depth nodes seen members = .ok count) :
    (members.map Prod.fst).Nodup ∧ ∀ name ∈ members.map Prod.fst, name ∉ seen := by
  induction members generalizing nodes seen with
  | nil => simp
  | cons member members ih =>
    obtain ⟨name, value⟩ := member
    obtain ⟨hseen, middle, -, hrest⟩ := (scanMembers_cons_ok limits).mp h
    obtain ⟨hnodup, hfresh⟩ := ih hrest
    rw [List.map_cons, List.nodup_cons]
    refine ⟨⟨fun hmem => hfresh name hmem List.mem_cons_self, hnodup⟩, ?_⟩
    intro other hother
    rcases List.mem_cons.mp hother with rfl | hother
    · exact hseen
    · exact fun hmem => hfresh other hother (List.mem_cons_of_mem _ hmem)

/-! ## The normal form -/

/-- The value of an integer that fits 64 bits. -/
def Numeral.int64? : Numeral → Option Int
  | .integer negative magnitude =>
    let value : Int := if negative then -magnitude else magnitude
    if -2 ^ 63 ≤ value ∧ value < 2 ^ 63 then some value else none
  | .fractional => none

def Numeral.ofInt (value : Int) : Numeral := .integer (decide (value < 0)) value.natAbs

theorem Numeral.value_ofInt (value : Int) :
    (if decide (value < 0) = true then -(value.natAbs : Int) else value.natAbs) = value := by
  by_cases h : value < 0
  · simp only [h, decide_true, if_true]
    omega
  · simp only [h, decide_false, Bool.false_eq_true, if_false]
    omega

theorem Numeral.int64?_ofInt {literal : Numeral} {value : Int} (h : literal.int64? = some value) :
    (Numeral.ofInt value).int64? = some value := by
  have hrange : -2 ^ 63 ≤ value ∧ value < 2 ^ 63 := by
    cases literal with
    | fractional => cases h
    | integer =>
      dsimp only [Numeral.int64?] at h
      split_ifs at h with hsign hrange hrange <;> cases h <;> exact hrange
  dsimp only [Numeral.ofInt, Numeral.int64?]
  rw [Numeral.value_ofInt, if_pos hrange]

/-- The order in which an encoder writes the members of a map. -/
def sortMembers {α : Type*} (members : List (String × α)) : List (String × α) :=
  members.insertionSort fun left right => left.1 ≤ right.1

theorem sortMembers_perm {α : Type*} (members : List (String × α)) :
    (sortMembers members).Perm members :=
  List.perm_insertionSort _ members

theorem sortMembers_of_sorted {α : Type*} {members : List (String × α)}
    (h : members.Pairwise fun left right => left.1 ≤ right.1) : sortMembers members = members :=
  List.Pairwise.insertionSort_eq h

theorem sortMembers_sorted {α : Type*} (members : List (String × α)) :
    (sortMembers members).Pairwise fun left right => left.1 ≤ right.1 := by
  have : Std.Total fun left right : String × α => left.1 ≤ right.1 := ⟨fun a b => le_total a.1 b.1⟩
  have : IsTrans (String × α) fun left right => left.1 ≤ right.1 := ⟨fun _ _ _ => le_trans⟩
  exact List.pairwise_insertionSort _ members

mutual

/-- The normal form of a tree, when all its numbers are 64-bit integers. -/
def Json.normalize : Json → Option Json
  | .object members => (normalizeMembers members).map fun members => .object (sortMembers members)
  | .array items => (normalizeItems items).map .array
  | .number literal => literal.int64?.map fun value => .number (Numeral.ofInt value)
  | tree => some tree

def normalizeItems : List Json → Option (List Json)
  | [] => some []
  | item :: items =>
    match item.normalize, normalizeItems items with
    | some item, some items => some (item :: items)
    | _, _ => none

def normalizeMembers : List (String × Json) → Option (List (String × Json))
  | [] => some []
  | (name, value) :: members =>
    match value.normalize, normalizeMembers members with
    | some value, some members => some ((name, value) :: members)
    | _, _ => none

end

/-- A tree that is its own normal form. -/
def Json.Normal (tree : Json) : Prop := tree.normalize = some tree

theorem normalizeItems_of_normal {items : List Json} (h : ∀ item ∈ items, item.Normal) :
    normalizeItems items = some items := by
  induction items with
  | nil => rfl
  | cons item items ih =>
    have hitem : item.normalize = some item := h item List.mem_cons_self
    rw [normalizeItems, hitem, ih fun other hother => h other (List.mem_cons_of_mem _ hother)]

theorem normalizeMembers_of_normal (h : ∀ member ∈ members, member.2.Normal) :
    normalizeMembers members = some members := by
  induction members with
  | nil => rfl
  | cons member members ih =>
    obtain ⟨name, value⟩ := member
    have hvalue : value.normalize = some value := h (name, value) List.mem_cons_self
    rw [normalizeMembers, hvalue, ih fun other hother => h other (List.mem_cons_of_mem _ hother)]

mutual

theorem Json.normal_normalize (tree : Json) {normal : Json} (h : tree.normalize = some normal) :
    normal.Normal := by
  cases tree with
  | array items =>
    rw [Json.normalize, Option.map_eq_some_iff] at h
    obtain ⟨normals, hitems, rfl⟩ := h
    rw [Json.Normal, Json.normalize,
      normalizeItems_of_normal (normal_normalizeItems items hitems)]
    rfl
  | object members =>
    rw [Json.normalize, Option.map_eq_some_iff] at h
    obtain ⟨normals, hmembers, rfl⟩ := h
    have hnormal := normal_normalizeMembers members hmembers
    have hsorted : ∀ member ∈ sortMembers normals, member.2.Normal := fun member hmember =>
      hnormal member ((sortMembers_perm normals).mem_iff.mp hmember)
    rw [Json.Normal, Json.normalize, normalizeMembers_of_normal hsorted, Option.map_some,
      sortMembers_of_sorted (sortMembers_sorted normals)]
  | number =>
    rw [Json.normalize, Option.map_eq_some_iff] at h
    obtain ⟨value, hvalue, rfl⟩ := h
    rw [Json.Normal, Json.normalize, Numeral.int64?_ofInt hvalue]
    rfl
  | _ =>
    cases h
    rfl

theorem normal_normalizeItems (items : List Json) {normals : List Json}
    (h : normalizeItems items = some normals) : ∀ item ∈ normals, item.Normal := by
  match items with
  | [] =>
    cases h
    simp
  | item :: items =>
    rw [normalizeItems] at h
    split at h
    case h_1 hfirst hrest =>
      cases h
      intro other hother
      rcases List.mem_cons.mp hother with rfl | hother
      · exact item.normal_normalize hfirst
      · exact normal_normalizeItems items hrest other hother
    case h_2 => cases h

theorem normal_normalizeMembers (members : List (String × Json)) {normals : List (String × Json)}
    (h : normalizeMembers members = some normals) : ∀ member ∈ normals, member.2.Normal := by
  match members with
  | [] =>
    cases h
    simp
  | (name, value) :: members =>
    rw [normalizeMembers] at h
    split at h
    case h_1 hfirst hrest =>
      cases h
      intro other hother
      rcases List.mem_cons.mp hother with rfl | hother
      · exact value.normal_normalize hfirst
      · exact normal_normalizeMembers members hrest other hother
    case h_2 => cases h

end

/-! ## Texts -/

/-- A library reads back what it has written. -/
class JsonLibrary (Text : Type) where
  size : Text → Nat
  marshal : Json → Text
  parse : Text → Option Json
  size_pos : ∀ tree, 0 < size (marshal tree)
  parse_marshal : ∀ tree, parse (marshal tree) = some tree

mutual

/-- The compact text of a tree; what a fractional number was is not kept. -/
def Json.text : Json → List Char
  | .null => "null".toList
  | .bool value => (if value then "true" else "false").toList
  | .number (.integer negative magnitude) =>
    (if negative then ['-'] else []) ++ Nat.toDigits 10 magnitude
  | .number .fractional => "0.5".toList
  | .string value => JsonText.quote value
  | .array items => '[' :: textItems items
  | .object members => '{' :: textMembers members

def textItems : List Json → List Char
  | [] => [']']
  | item :: items => item.text ++ (if items.isEmpty then [] else [',']) ++ textItems items

def textMembers : List (String × Json) → List Char
  | [] => ['}']
  | (name, value) :: members => JsonText.quote name ++ ':' :: value.text ++
    (if members.isEmpty then [] else [',']) ++ textMembers members

end

theorem Json.text_ne_nil (tree : Json) : tree.text ≠ [] := by
  cases tree with
  | bool value => cases value <;> simp [Json.text]
  | number literal =>
    cases literal with
    | integer negative magnitude => simp [Json.text]
    | fractional => simp [Json.text]
  | null | string | array | object => simp [Json.text, JsonText.quote]

/-- The library whose texts are the trees themselves, measured in the octets of their compact text. -/
instance plainLibrary : JsonLibrary Json where
  size tree := (tree.text.map Char.utf8Size).sum
  marshal := id
  parse := some
  size_pos tree := by
    obtain ⟨c, rest, htext⟩ := List.exists_cons_of_ne_nil tree.text_ne_nil
    simp [htext, Char.utf8Size_pos]
  parse_marshal _ := rfl

end Veer.JsonTree
