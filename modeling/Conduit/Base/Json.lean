import Mathlib.Data.List.Basic

/-!
# JSON values

A JSON text is modelled by its value. A number that is no integer keeps its
text; the fields of an object are looked up by name.
-/

namespace Base

inductive Json
  | null
  | bool (value : Bool)
  | int (value : Int)
  | decimal (text : String)
  | string (value : String)
  | array (values : List Json)
  | object (fields : List (String × Json))

namespace Json

/-- `Map::get`. Names are compared as propositions, so that `simp` decides a
lookup without computing with strings. -/
def field : List (String × Json) → String → Option Json
  | [], _ => none
  | (key, value) :: fields, name => if name = key then some value else field fields name

/-- `Value::get`. -/
def get (value : Json) (name : String) : Option Json :=
  match value with
  | object fields => field fields name
  | _ => none

def asStr : Json → Option String
  | string value => some value
  | _ => none

def asBool : Json → Option Bool
  | bool value => some value
  | _ => none

/-- `Value::as_i64`. -/
def asI64 : Json → Option Int
  | int (.ofNat n) => if n < 9223372036854775808 then some (.ofNat n) else none
  | int (.negSucc n) => if n < 9223372036854775808 then some (.negSucc n) else none
  | _ => none

/-- `Value::as_u64`. -/
def asU64 : Json → Option UInt64
  | int (.ofNat n) => if n < UInt64.size then some (UInt64.ofNat n) else none
  | _ => none

def asArray : Json → Option (List Json)
  | array values => some values
  | _ => none

def asObject : Json → Option (List (String × Json))
  | object fields => some fields
  | _ => none

/-- A string field of a value. -/
def strField (value : Json) (name : String) : Option String := (value.get name).bind asStr

/-- A `u64` field of a value. -/
def u64Field (value : Json) (name : String) : Option UInt64 := (value.get name).bind asU64

def isNull : Json → Bool
  | null => true
  | _ => false

/-- A `u64` as a number. -/
def ofU64 (n : UInt64) : Json := int (.ofNat n.toNat)

/-- `Map::insert`: the field keeps its place if it is there. -/
def insert (name : String) (value : Json) : List (String × Json) → List (String × Json)
  | [] => [(name, value)]
  | (other, old) :: fields =>
      if other = name then (name, value) :: fields else (other, old) :: insert name value fields

/-- `Map::remove`. -/
def remove (name : String) (fields : List (String × Json)) : List (String × Json) :=
  fields.filter fun entry => entry.1 ≠ name

/-! ## Text -/

/-- A character inside a JSON string. -/
def escapeChar (c : Char) : List Char :=
  if c = '"' then ['\\', '"']
  else if c = '\\' then ['\\', '\\']
  else if c = '\n' then ['\\', 'n']
  else if c = '\r' then ['\\', 'r']
  else if c = '\t' then ['\\', 't']
  else if c.toNat = 8 then ['\\', 'b']
  else if c.toNat = 12 then ['\\', 'f']
  else if c.toNat < 32 then
    ['\\', 'u', '0', '0', Nat.digitChar (c.toNat / 16), Nat.digitChar (c.toNat % 16)]
  else [c]

def quote (text : String) : List Char := '"' :: text.toList.flatMap escapeChar ++ ['"']

mutual

/-- `serde_json::to_string` as characters: no white space. -/
def chars : Json → List Char
  | null => "null".toList
  | bool true => "true".toList
  | bool false => "false".toList
  | int value => (toString value).toList
  | decimal text => text.toList
  | string value => quote value
  | array values => '[' :: charsOfValues values ++ [']']
  | object fields => '\x7b' :: charsOfFields fields ++ ['\x7d']

def charsOfValues : List Json → List Char
  | [] => []
  | [value] => chars value
  | value :: values => chars value ++ ',' :: charsOfValues values

def charsOfFields : List (String × Json) → List Char
  | [] => []
  | [(name, value)] => quote name ++ ':' :: chars value
  | (name, value) :: fields => quote name ++ ':' :: chars value ++ ',' :: charsOfFields fields

end

/-- `serde_json::to_string`. -/
def render (value : Json) : String := String.ofList (chars value)

/-! ## Typed fields -/

/-- A field with a default. -/
def fieldOr {α : Type} (default : α) (decode : Json → Option α) (fields : List (String × Json))
    (name : String) : Option α :=
  (field fields name).elim (some default) decode

/-- An optional field: `null` is as good as absent. -/
def fieldOption {α : Type} (decode : Json → Option α) (fields : List (String × Json))
    (name : String) : Option (Option α) :=
  (field fields name).elim (some none) fun value =>
    if value.isNull then some none else (decode value).map some

/-- A field that must be there. -/
def fieldRequired {α : Type} (decode : Json → Option α) (fields : List (String × Json))
    (name : String) : Option α :=
  (field fields name).bind decode

/-- A list of values of one type. -/
def decodeList {α : Type} (decode : Json → Option α) (value : Json) : Option (List α) :=
  value.asArray.bind fun values => values.mapM decode

/-- No name of a flattened struct occurs twice. -/
def namesOnce (names : List String) (fields : List (String × Json)) : Bool :=
  names.all fun name => (fields.filter fun entry => entry.1 = name).length ≤ 1

/-- What a flattened map keeps: the fields without a name of their own. -/
def otherFields (names : List String) (fields : List (String × Json)) : List (String × Json) :=
  fields.filter fun entry => entry.1 ∉ names

/-- A field that is written only if it is there. -/
def optionalField (name : String) (value : Option Json) : List (String × Json) :=
  value.toList.map fun value => (name, value)

/-- A string field that is written only if it is not empty. -/
def nonEmptyField (name value : String) : List (String × Json) :=
  if value = "" then [] else [(name, .string value)]

/-- A list field that is written only if it is not empty. -/
def nonEmptyList (name : String) (values : List Json) : List (String × Json) :=
  if values.isEmpty then [] else [(name, .array values)]

/-! ## Reading back -/

@[simp] theorem get_object (fields : List (String × Json)) (name : String) :
    (object fields).get name = field fields name := rfl

@[simp] theorem asStr_string (value : String) : (string value).asStr = some value := rfl

@[simp] theorem asU64_ofU64 (n : UInt64) : (ofU64 n).asU64 = some n := by
  unfold ofU64 asU64
  dsimp only
  rw [if_pos n.toNat_lt, UInt64.ofNat_toNat]

@[simp] theorem isNull_ofU64 (n : UInt64) : (ofU64 n).isNull = false := rfl

@[simp] theorem field_nil (name : String) : field [] name = none := rfl

@[simp] theorem field_cons (name key : String) (value : Json) (fields : List (String × Json)) :
    field ((key, value) :: fields) name = if name = key then some value else field fields name := rfl

/-- What a lookup finds is there. -/
theorem mem_of_field {fields : List (String × Json)} {name : String} {value : Json}
    (h : field fields name = some value) : (name, value) ∈ fields := by
  induction fields with
  | nil => exact absurd h (by simp)
  | cons entry fields ih =>
      rw [field_cons] at h
      by_cases hname : name = entry.1
      · rw [if_pos hname] at h
        rw [hname, ← Option.some.inj h]
        exact List.mem_cons_self
      · rw [if_neg hname] at h
        exact List.mem_cons_of_mem _ (ih h)

theorem field_eq_none {fields : List (String × Json)} {name : String} :
    field fields name = none ↔ name ∉ fields.map Prod.fst := by
  induction fields with
  | nil => simp
  | cons entry fields ih =>
      rw [field_cons, List.map_cons, List.mem_cons, not_or]
      by_cases hname : name = entry.1
      · simp [hname]
      · rw [if_neg hname, ih]
        exact ⟨fun h => ⟨hname, h⟩, And.right⟩

theorem field_append (fields fields' : List (String × Json)) (name : String) :
    field (fields ++ fields') name = (field fields name).or (field fields' name) := by
  induction fields with
  | nil => rfl
  | cons entry fields ih =>
      rw [List.cons_append, field_cons, field_cons, ih]
      split <;> rfl

theorem field_insert (name other : String) (value : Json) (fields : List (String × Json)) :
    field (insert name value fields) other = if other = name then some value else field fields other := by
  induction fields with
  | nil => rfl
  | cons entry fields ih =>
      obtain ⟨key, old⟩ := entry
      unfold insert
      by_cases hkey : key = name
      · rw [if_pos hkey, field_cons, field_cons, hkey]
        by_cases h : other = name
        · rw [if_pos h, if_pos h]
        · rw [if_neg h, if_neg h, if_neg h]
      · rw [if_neg hkey, field_cons, field_cons, ih]
        by_cases h : other = key
        · rw [if_pos h, if_pos h, if_neg (fun hname => hkey (h.symm.trans hname))]
        · rw [if_neg h, if_neg h]

theorem insert_insert (name : String) (value value' : Json) (fields : List (String × Json)) :
    insert name value' (insert name value fields) = insert name value' fields := by
  induction fields with
  | nil => simp [insert]
  | cons entry fields ih =>
      obtain ⟨key, old⟩ := entry
      by_cases hkey : key = name
      · simp [insert, hkey]
      · simp [insert, hkey, ih]

/-- Insertions at two names commute, where the first is of a field that is there. -/
theorem insert_comm {name other : String} {fields : List (String × Json)} (h : other ≠ name)
    (hthere : (field fields name).isSome) (value new : Json) :
    insert other new (insert name value fields) = insert name value (insert other new fields) := by
  induction fields with
  | nil => exact absurd hthere (by simp)
  | cons entry fields ih =>
      obtain ⟨key, old⟩ := entry
      rw [field_cons] at hthere
      by_cases hname : key = name
      · subst hname
        simp [insert, h.symm]
      · rw [if_neg (Ne.symm hname)] at hthere
        by_cases hother : key = other
        · subst hother
          simp [insert, h]
        · simp [insert, hname, hother, ih hthere]

/-- Inserting what is there changes nothing. -/
theorem insert_of_field {name : String} {value : Json} {fields : List (String × Json)}
    (h : field fields name = some value) : insert name value fields = fields := by
  induction fields with
  | nil => exact absurd h (by simp)
  | cons entry fields ih =>
      obtain ⟨key, old⟩ := entry
      rw [field_cons] at h
      unfold insert
      by_cases hkey : key = name
      · rw [if_pos hkey.symm] at h
        rw [if_pos hkey, hkey, Option.some.inj h]
      · rw [if_neg (Ne.symm hkey)] at h
        rw [if_neg hkey, ih h]

theorem field_remove (name other : String) (fields : List (String × Json)) :
    field (remove name fields) other = if other = name then none else field fields other := by
  induction fields with
  | nil => simp [remove]
  | cons entry fields ih =>
      obtain ⟨key, value⟩ := entry
      unfold remove at ih ⊢
      by_cases hkey : key = name
      · rw [List.filter_cons_of_neg (by simpa using hkey), ih, field_cons]
        by_cases h : other = name
        · rw [if_pos h, if_pos h]
        · rw [if_neg h, if_neg h, if_neg (fun hother => h (hother.trans hkey))]
      · rw [List.filter_cons_of_pos (by simpa using hkey), field_cons, field_cons, ih]
        by_cases h : other = name
        · rw [if_pos h, if_pos h, if_neg (fun hother => hkey (hother.symm.trans h))]
        · rw [if_neg h, if_neg h]

theorem remove_insert {name other : String} (h : other ≠ name) (value : Json)
    (fields : List (String × Json)) :
    remove other (insert name value fields) = insert name value (remove other fields) := by
  induction fields with
  | nil => simp [insert, remove, h.symm]
  | cons entry fields ih =>
      obtain ⟨key, old⟩ := entry
      unfold remove at ih ⊢
      by_cases hname : key = name
      · subst hname
        simp [insert, h.symm]
      · by_cases hother : key = other
        · subst hother
          simpa [insert, h] using ih
        · simpa [insert, hname, hother] using ih

end Json

end Base
