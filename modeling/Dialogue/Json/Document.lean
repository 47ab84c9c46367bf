import Dialogue.Json.Basic

/-! # JSON documents

What a JSON text says, as it is written: members in the order of the text, repeated names kept.
A document may hold parts that no value stands for, such as a number out of range or half a
surrogate pair; they do no harm where nobody looks at them.

* `toJson?_ofJson`: the document of a value with ordered members stands for that value. -/

namespace Dialogue

/-- A JSON text as written. -/
inductive Document where
  | null
  | bool (b : Bool)
  | int (n : Int)
  | float (x : Float)
  | str (s : String)
  | arr (items : List Document)
  | obj (members : List (String × Document))
  /-- A well-formed text that stands for no value. -/
  | unreadable
deriving Inhabited

namespace Document

mutual

/-- The document of a value. -/
def ofJson : Json → Document
  | .null => .null
  | .bool b => .bool b
  | .int n => .int n
  | .float x => .float x
  | .str s => .str s
  | .arr items => .arr (ofItems items)
  | .obj fs => .obj (ofFields fs)
termination_by structural v => v

/-- The documents of the items. -/
def ofItems : List Json → List Document
  | [] => []
  | v :: rest => ofJson v :: ofItems rest
termination_by structural v => v

/-- The documents of the members. -/
def ofFields : List (String × Json) → List (String × Document)
  | [] => []
  | (name, v) :: rest => (name, ofJson v) :: ofFields rest
termination_by structural v => v

end

mutual

/-- The value that the document stands for; of a repeated name the last member counts. -/
def toJson? : Document → Option Json
  | .null => some .null
  | .bool b => some (.bool b)
  | .int n => some (.int n)
  | .float x => some (.float x)
  | .str s => some (.str s)
  | .arr items => (itemsToJson? items).map .arr
  | .obj members => (membersToJson? members).map fun fs => .obj (Fields.ofList fs)
  | .unreadable => none
termination_by structural d => d

/-- The values of the items. -/
def itemsToJson? : List Document → Option (List Json)
  | [] => some []
  | d :: rest => match toJson? d, itemsToJson? rest with
    | some v, some vs => some (v :: vs)
    | _, _ => none
termination_by structural d => d

/-- The members with their values, in the order of the text. -/
def membersToJson? : List (String × Document) → Option (List (String × Json))
  | [] => some []
  | (name, d) :: rest => match toJson? d, membersToJson? rest with
    | some v, some fs => some ((name, v) :: fs)
    | _, _ => none
termination_by structural d => d

end

end Document

/-! ### Lemmas -/

namespace Fields

/-- The name goes behind all names that are smaller. -/
theorem insert_eq_append {fs : Fields} {name : String} (value : Json)
    (h : ∀ f ∈ fs, f.1 < name) : fs.insert name value = fs ++ [(name, value)] := by
  induction fs with
  | nil => rfl
  | cons f rest ih =>
    have hf := h f (by simp)
    have hne : name ≠ f.1 := fun e => String.lt_irrefl f.1 (e ▸ hf)
    simp only [insert, if_neg (fun h' => String.lt_irrefl _ (String.lt_trans hf h')), if_neg hne,
      ih fun g hg => h g (by simp [hg]), List.cons_append]

theorem merge_eq_append (acc fs : Fields) (h : (acc ++ fs).Pairwise fun a b => a.1 < b.1) :
    acc.merge fs = acc ++ fs := by
  induction fs generalizing acc with
  | nil => simp [merge]
  | cons f rest ih =>
    have hlt : ∀ g ∈ acc, g.1 < f.1 := fun g hg =>
      (List.pairwise_append.1 h).2.2 g hg f (by simp)
    have := ih (acc ++ [f]) (by simpa using h)
    simpa [merge, insert_eq_append f.2 hlt] using this

/-- Members that are in order already are left as they are. -/
theorem ofList_eq_self {fs : Fields} (h : Sorted fs) : ofList fs = fs := by
  simpa [ofList] using merge_eq_append [] fs (by simpa [Sorted] using h)

end Fields

namespace Json

mutual

/-- The members of every object in the value are in order. -/
def Ordered : Json → Prop
  | .arr items => OrderedItems items
  | .obj fs => Fields.Sorted fs ∧ OrderedFields fs
  | _ => True
termination_by structural v => v

/-- The items are ordered values. -/
def OrderedItems : List Json → Prop
  | [] => True
  | v :: rest => Ordered v ∧ OrderedItems rest
termination_by structural v => v

/-- The members have ordered values. -/
def OrderedFields : List (String × Json) → Prop
  | [] => True
  | (_, v) :: rest => Ordered v ∧ OrderedFields rest
termination_by structural v => v

end

end Json

namespace Document

mutual

/-- The document of a value with ordered members stands for that value. -/
theorem toJson?_ofJson : ∀ v : Json, v.Ordered → (ofJson v).toJson? = some v
  | .null, _ | .bool _, _ | .int _, _ | .float _, _ | .str _, _ => by simp [ofJson, toJson?]
  | .arr items, h => by
    simp only [Json.Ordered] at h
    simp [ofJson, toJson?, itemsToJson?_ofItems items h]
  | .obj fs, h => by
    simp only [Json.Ordered] at h
    simp [ofJson, toJson?, membersToJson?_ofFields fs h.2, Fields.ofList_eq_self h.1]

theorem itemsToJson?_ofItems : ∀ items : List Json, Json.OrderedItems items →
    itemsToJson? (ofItems items) = some items
  | [], _ => by simp [ofItems, itemsToJson?]
  | v :: rest, h => by
    simp only [Json.OrderedItems] at h
    simp [ofItems, itemsToJson?, toJson?_ofJson v h.1, itemsToJson?_ofItems rest h.2]

theorem membersToJson?_ofFields : ∀ fs : List (String × Json), Json.OrderedFields fs →
    membersToJson? (ofFields fs) = some fs
  | [], _ => by simp [ofFields, membersToJson?]
  | (name, v) :: rest, h => by
    simp only [Json.OrderedFields] at h
    simp [ofFields, membersToJson?, toJson?_ofJson v h.1, membersToJson?_ofFields rest h.2]

end

end Document

end Dialogue
