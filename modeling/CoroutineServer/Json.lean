import CoroutineServer.Bytes
import CoroutineServer.Library.Utf8

/-!
# JSON values and the libraries behind them

The values of `nlohmann::json` and the accessors the server uses on them, with the texts of the
exceptions they throw. Parsing, serialising and the hash of `std::hash<std::string>` are code outside
the repository: a platform supplies them with what the server relies on.
-/

namespace CoroutineServer

inductive Json where
  | null
  | boolean (value : Bool)
  | number (value : Int)
  | numberFloat (bits : UInt64)
  | string (text : Bytes)
  | array (items : List Json)
  | object (fields : List (Bytes × Json))

/-- What a thrown exception says of itself: `e.what()`. -/
abbrev Exn := Bytes

namespace Json

def typeName : Json → Bytes
  | .null => ascii "null"
  | .boolean _ => ascii "boolean"
  | .number _ => ascii "number"
  | .numberFloat _ => ascii "number"
  | .string _ => ascii "string"
  | .array _ => ascii "array"
  | .object _ => ascii "object"

/-- `type_error` 302, thrown by `get`. -/
def typeMustBe (expected : String) (value : Json) : Exn :=
  ascii "[json.exception.type_error.302] type must be " ++ ascii expected ++ ascii ", but is "
    ++ value.typeName

/-- `type_error` 305, thrown by `operator[]`. -/
def cannotUseIndex (value : Json) : Exn :=
  ascii "[json.exception.type_error.305] cannot use operator[] with a string argument with "
    ++ value.typeName

def find (key : Bytes) : List (Bytes × Json) → Option Json
  | [] => none
  | (name, value) :: fields => if name = key then some value else find key fields

def contains (root : Json) (key : String) : Bool :=
  match root with
  | .object fields => (find (ascii key) fields).isSome
  | _ => false

/-- `root[key]` on a value that is not const: a missing key, or a null root, gives null. -/
def index (root : Json) (key : String) : Except Exn Json :=
  match root with
  | .object fields => .ok ((find (ascii key) fields).getD .null)
  | .null => .ok .null
  | value => .error (cannotUseIndex value)

/-- `get<std::string>()`. -/
def getString : Json → Except Exn Bytes
  | .string text => .ok text
  | value => .error (typeMustBe "string" value)

/-- `get<int64_t>()`; `truncate` is the conversion of a double. -/
def getInt64 (truncate : UInt64 → Int) : Json → Except Exn Int
  | .number value => .ok (toInt64 value)
  | .numberFloat bits => .ok (toInt64 (truncate bits))
  | value => .error (typeMustBe "number" value)

/-- `get<int>()`, which takes a boolean as well. -/
def getInt (truncate : UInt64 → Int) : Json → Except Exn Int
  | .boolean value => .ok value.toInt
  | .number value => .ok (toInt32 value)
  | .numberFloat bits => .ok (toInt32 (truncate bits))
  | value => .error (typeMustBe "number" value)

/-- The order of the keys of an object. -/
def keyLt : Bytes → Bytes → Bool
  | _, [] => false
  | [], _ :: _ => true
  | x :: xs, y :: ys => x < y || (x = y && keyLt xs ys)

def insertField (key : Bytes) (value : Json) : List (Bytes × Json) → List (Bytes × Json)
  | [] => [(key, value)]
  | (name, old) :: fields =>
      if key = name then (name, value) :: fields
      else if keyLt key name then (key, value) :: (name, old) :: fields
      else (name, old) :: insertField key value fields

/-- `root[key] = value` on an object or null. -/
def set (root : Json) (key : String) (value : Json) : Json :=
  match root with
  | .object fields => .object (insertField (ascii key) value fields)
  | .null => .object [(ascii key, value)]
  | other => other

def text (literal : String) : Json := .string (ascii literal)

/-- Every string and key of the value is well-formed UTF-8. -/
inductive WellFormed : Json → Prop where
  | null : WellFormed .null
  | boolean (value : Bool) : WellFormed (.boolean value)
  | number (value : Int) : WellFormed (.number value)
  | numberFloat (bits : UInt64) : WellFormed (.numberFloat bits)
  | string {text : Bytes} (h : Utf8.Valid text) : WellFormed (.string text)
  | array {items : List Json} (h : ∀ item ∈ items, WellFormed item) : WellFormed (.array items)
  | object {fields : List (Bytes × Json)} (hkeys : ∀ field ∈ fields, Utf8.Valid field.1)
      (hvalues : ∀ field ∈ fields, WellFormed field.2) : WellFormed (.object fields)

theorem find_mem {key : Bytes} {fields : List (Bytes × Json)} {value : Json}
    (h : find key fields = some value) : (key, value) ∈ fields := by
  induction fields with
  | nil => cases h
  | cons field fields ih =>
    obtain ⟨name, other⟩ := field
    unfold find at h
    split at h
    · rename_i hname
      obtain rfl := Option.some.inj h
      rw [hname]
      exact List.mem_cons_self
    · exact List.mem_cons_of_mem _ (ih h)

theorem WellFormed.index {root value : Json} {key : String} (hroot : root.WellFormed)
    (h : root.index key = .ok value) : value.WellFormed := by
  unfold Json.index at h
  split at h
  · rename_i fields
    obtain rfl := Except.ok.inj h
    cases hroot with
    | object _ hvalues =>
      cases hfind : find (ascii key) fields with
      | none => exact .null
      | some value => exact hvalues _ (find_mem hfind)
  · obtain rfl := Except.ok.inj h
    exact .null
  · cases h

theorem WellFormed.getString {value : Json} {text : Bytes} (hvalue : value.WellFormed)
    (h : value.getString = .ok text) : Utf8.Valid text := by
  cases hvalue with
  | string htext =>
    obtain rfl := Except.ok.inj h
    exact htext
  | _ => cases h

theorem mem_insertField {key : Bytes} {value : Json} {fields : List (Bytes × Json)}
    {field : Bytes × Json} (h : field ∈ insertField key value fields) :
    field = (key, value) ∨ field ∈ fields := by
  induction fields with
  | nil => exact .inl (List.mem_singleton.mp h)
  | cons head fields ih =>
    obtain ⟨name, old⟩ := head
    unfold insertField at h
    split at h
    · rename_i hname
      rcases List.mem_cons.mp h with rfl | hmem
      · exact .inl (by rw [hname])
      · exact .inr (List.mem_cons_of_mem _ hmem)
    · split at h
      · rcases List.mem_cons.mp h with rfl | hmem
        · exact .inl rfl
        · exact .inr hmem
      · rcases List.mem_cons.mp h with rfl | hmem
        · exact .inr List.mem_cons_self
        · exact (ih hmem).imp_right (List.mem_cons_of_mem _)

theorem WellFormed.set {root value : Json} {key : String} (hroot : root.WellFormed)
    (hkey : Utf8.Valid (ascii key)) (hvalue : value.WellFormed) :
    (root.set key value).WellFormed := by
  cases hroot with
  | object hkeys hvalues =>
    refine .object (fun field hmem => ?_) (fun field hmem => ?_)
    · rcases mem_insertField hmem with rfl | hmem
      · exact hkey
      · exact hkeys field hmem
    · rcases mem_insertField hmem with rfl | hmem
      · exact hvalue
      · exact hvalues field hmem
  | null =>
    refine .object (fun field hmem => ?_) (fun field hmem => ?_)
    · obtain rfl := List.mem_singleton.mp hmem
      exact hkey
    · obtain rfl := List.mem_singleton.mp hmem
      exact hvalue
  | boolean value => exact .boolean value
  | number value => exact .number value
  | numberFloat bits => exact .numberFloat bits
  | string htext => exact .string htext
  | array hitems => exact .array hitems

theorem WellFormed.set_text {root : Json} {key literal : String} (hroot : root.WellFormed)
    (hkey : ∀ byte ∈ ascii key, byte < 0x80) (hliteral : ∀ byte ∈ ascii literal, byte < 0x80) :
    (root.set key (.text literal)).WellFormed :=
  hroot.set (.of_ascii hkey) (.string (.of_ascii hliteral))

theorem WellFormed.set_number {root : Json} {key : String} {value : Int} (hroot : root.WellFormed)
    (hkey : ∀ byte ∈ ascii key, byte < 0x80) : (root.set key (.number value)).WellFormed :=
  hroot.set (.of_ascii hkey) (.number value)

end Json

/-- What the server takes from outside the repository. `parse` and `dump` are those of nlohmann's
library, `truncate` is the conversion of a double to an integer, and `hash` is `std::hash` on a
string, of 64 bits. -/
structure Platform where
  parse : Bytes → Option Json
  dump : Json → Except Exn Bytes
  truncate : UInt64 → Int
  hash : Bytes → UInt64
  /-- Parsing rejects text that is not well-formed UTF-8, and so do escapes that name none. -/
  parse_wellFormed : ∀ text root, parse text = some root → root.WellFormed
  /-- Serialising throws for ill-formed strings only. -/
  dump_ok : ∀ root : Json, root.WellFormed → ∃ text, dump root = .ok text
  /-- No value has an empty text. -/
  dump_ne_nil : ∀ root text, dump root = .ok text → text ≠ []

end CoroutineServer
