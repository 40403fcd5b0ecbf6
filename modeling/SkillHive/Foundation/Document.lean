import SkillHive.Foundation.Text

/-!
# JSON documents

A document is the syntax of a JSON text, before a reader decides what it denotes. It keeps
what readers treat differently: every field of an object in the order of the text, repeated
keys included, and the sign of an integer literal apart from its magnitude.

`value` is the reading of a dictionary, where the last of several fields with one key counts.
`soleField?` is the reading of a derived struct visitor, which knows a field under several
names and refuses a second occurrence.
-/

namespace SkillHive.Foundation

inductive Document where
  | null
  | bool (value : Bool)
  | integer (negative : Bool) (magnitude : ℕ)
  | real (literal : String)
  | string (value : String)
  | array (items : List Document)
  | object (fields : List (String × Document))

namespace Document

/-- The fields of an object, none for any other document. -/
def fields : Document → List (String × Document)
  | object fields => fields
  | _ => []

/-! ## Dictionaries -/

mutual

/-- `json.loads`, on the syntax. The order of the keys of a dictionary is not read. -/
def value : Document → Json
  | null => .null
  | bool value => .bool value
  | integer negative magnitude => .integer (if negative then -magnitude else magnitude)
  | real literal => .real literal
  | string value => .string value
  | array items => .array (values items)
  | object fields => .object (fieldValues fields)

def values : List Document → List Json
  | [] => []
  | item :: items => item.value :: values items

def fieldValues : List (String × Document) → List (String × Json)
  | [] => []
  | (key, document) :: rest =>
    if rest.any (fun field ↦ field.1 = key) then fieldValues rest
    else (key, document.value) :: fieldValues rest

end

theorem values_eq_map (items : List Document) : values items = items.map value := by
  induction items with
  | nil => rfl
  | cons item items ih => rw [values, ih, List.map_cons]

/-- The last field with the key. -/
def lastField? (fields : List (String × Document)) (key : String) : Option Document :=
  ((fields.filter fun field ↦ field.1 = key).getLast?).map Prod.snd

theorem lastField?_cons_of_any {fields : List (String × Document)} {key name : String}
    {document : Document} (h : fields.any (fun field ↦ field.1 = name) = true) :
    lastField? ((name, document) :: fields) key = lastField? fields key := by
  unfold lastField?
  rw [List.filter_cons]
  split
  case isTrue hkey =>
    obtain rfl : name = key := of_decide_eq_true hkey
    obtain ⟨field, hmem, hname⟩ := List.any_eq_true.mp h
    have hfilter : field ∈ fields.filter fun field ↦ field.1 = name :=
      List.mem_filter.mpr ⟨hmem, hname⟩
    rw [List.getLast?_cons_of_ne_nil (List.ne_nil_of_mem hfilter)]
  case isFalse => rfl

theorem lastField?_cons_of_not_any {fields : List (String × Document)} {key name : String}
    {document : Document} (h : fields.any (fun field ↦ field.1 = name) = false) :
    lastField? ((name, document) :: fields) key =
      if name = key then some document else lastField? fields key := by
  unfold lastField?
  rw [List.filter_cons]
  by_cases hkey : name = key
  · subst hkey
    have hnone : (fields.filter fun field ↦ field.1 = name) = [] := by
      rw [List.filter_eq_nil_iff]
      exact fun field hmem hname ↦ List.any_eq_false.mp h field hmem hname
    rw [hnone]
    simp
  · simp [hkey]

/-- A dictionary answers with the last field of the key. -/
theorem get_value_object (fields : List (String × Document)) (key : String) :
    (object fields).value.get key = (lastField? fields key).map value := by
  rw [value, Json.get]
  induction fields with
  | nil => rfl
  | cons field fields ih =>
    obtain ⟨name, document⟩ := field
    rw [fieldValues]
    split
    case isTrue hany => rw [ih, lastField?_cons_of_any hany]
    case isFalse hany =>
      rw [lastField?_cons_of_not_any (Bool.eq_false_iff.mpr hany), List.find?_cons]
      by_cases hkey : name = key
      · simp [hkey]
      · simpa [hkey] using ih

/-! ## Structs -/

/-- The fields that a visitor takes for one of its own, which it knows under these names. -/
def namedFields (fields : List (String × Document)) (names : List String) :
    List (String × Document) :=
  fields.filter fun field ↦ field.1 ∈ names

/-- The field of a derived struct; `none` where it is missing or occurs twice. -/
def soleField? (fields : List (String × Document)) (names : List String) : Option Document :=
  match namedFields fields names with
  | [field] => some field.2
  | _ => none

theorem soleField?_eq_some_iff {fields : List (String × Document)} {names : List String}
    {document : Document} :
    soleField? fields names = some document ↔
      ∃ name, namedFields fields names = [(name, document)] := by
  unfold soleField?
  split
  case h_1 field hfield =>
    rw [hfield, Option.some.injEq]
    constructor
    · rintro rfl
      exact ⟨field.1, rfl⟩
    · rintro ⟨name, hname⟩
      cases hname
      rfl
  case h_2 hne =>
    constructor
    · exact fun h ↦ nomatch h
    · exact fun ⟨name, hname⟩ ↦ absurd hname (hne _)

/-- A key of a visitor's field reads, in a dictionary, the only occurrence or nothing. -/
theorem lastField?_of_namedFields {fields : List (String × Document)} {names : List String}
    {name : String} {document : Document} (h : namedFields fields names = [(name, document)])
    {key : String} (hkey : key ∈ names) :
    lastField? fields key = if name = key then some document else none := by
  have hfilter : (fields.filter fun field ↦ field.1 = key) =
      [(name, document)].filter fun field ↦ field.1 = key := by
    rw [← h, namedFields, List.filter_filter]
    refine List.filter_congr fun field _ ↦ ?_
    by_cases hname : field.1 = key <;> simp [hname, hkey]
  unfold lastField?
  rw [hfilter]
  by_cases hname : name = key <;> simp [hname]

theorem mem_names_of_namedFields {fields : List (String × Document)} {names : List String}
    {field : String × Document} (h : field ∈ namedFields fields names) : field.1 ∈ names :=
  of_decide_eq_true (List.mem_filter.mp h).2

end Document

end SkillHive.Foundation
