import Mathlib.Tactic.Common

/-!
# Foundations/Value — JSON values and the types that pass through them

Everything the library stores is a JSON value: step outputs, messages, events, inputs.  `Value` is
`serde_json::Value` with insertion-ordered objects, and `Serde T` is what `Serialize` and
`DeserializeOwned` give for `T` — `serde_json::to_value` and `serde_json::from_value`.

`Option<T>` is the one instance whose shape matters downstream: `None` is written as `null`, and
`null` is read as `None` whatever `T` is.
-/

namespace Durare

/-- A JSON number: an integer, or a finite float `mantissa · 2 ^ exponent`. -/
inductive Number where
  | int (n : Int)
  | float (mantissa exponent : Int)
  deriving DecidableEq, Repr

/-- A JSON value, `serde_json::Value`.  An object keeps its fields in insertion order. -/
inductive Value where
  | null
  | bool (b : Bool)
  | number (n : Number)
  | string (s : String)
  | array (items : List Value)
  | object (fields : List (String × Value))
  deriving Repr

instance : Inhabited Value := ⟨.null⟩

namespace Value

/-- `Value::is_null`. -/
def isNull : Value → Bool
  | null => true
  | _ => false

@[simp] theorem isNull_eq_true {v : Value} : v.isNull = true ↔ v = null := by
  cases v <;> simp [isNull]

@[simp] theorem isNull_eq_false {v : Value} : v.isNull = false ↔ v ≠ null := by
  cases v <;> simp [isNull]

instance (v : Value) : Decidable (v = null) := decidable_of_iff _ isNull_eq_true

/-- The field `key` of an object, as `Map::get`. -/
def field (fields : List (String × Value)) (key : String) : Option Value := fields.lookup key

end Value

/-! ## Conversion to and from JSON -/

/-- `Serialize` and `DeserializeOwned` at `T`: `serde_json::to_value` and `from_value`, an error
being the text of the `serde_json::Error`. -/
class Serde (T : Type) where
  toValue : T → Except String Value
  fromValue : Value → Except String T

/-- Values of `T` round-trip: every one is written, and reading what was written gives it back. -/
class LawfulSerde (T : Type) [Serde T] : Prop where
  roundTrip : ∀ v : T, ∃ j, Serde.toValue v = .ok j ∧ Serde.fromValue (T := T) j = .ok v

namespace Serde

/-- The mismatch text of `serde_json`, `invalid type: …, expected …`. -/
def invalidType (found expected : String) : String :=
  "invalid type: " ++ found ++ ", expected " ++ expected

/-- How `serde` names what it found. -/
def unexpected : Value → String
  | .null => "null"
  | .bool b => "boolean `" ++ toString b ++ "`"
  | .number (.int n) => "integer `" ++ toString n ++ "`"
  | .number (.float _ _) => "floating point number"
  | .string s => "string \"" ++ s ++ "\""
  | .array _ => "sequence"
  | .object _ => "map"

instance : Serde Value where
  toValue v := .ok v
  fromValue v := .ok v

instance : LawfulSerde Value := ⟨fun v => ⟨v, rfl, rfl⟩⟩

instance : Serde Unit where
  toValue _ := .ok .null
  fromValue
    | .null => .ok ()
    | v => .error (invalidType (unexpected v) "unit")

instance : LawfulSerde Unit := ⟨fun _ => ⟨.null, rfl, rfl⟩⟩

instance : Serde String where
  toValue s := .ok (.string s)
  fromValue
    | .string s => .ok s
    | v => .error (invalidType (unexpected v) "a string")

instance : LawfulSerde String := ⟨fun s => ⟨.string s, rfl, rfl⟩⟩

instance : Serde Nat where
  toValue n := .ok (.number (.int n))
  fromValue
    | .number (.int (.ofNat n)) => .ok n
    | v => .error (invalidType (unexpected v) "usize")

instance : LawfulSerde Nat := ⟨fun n => ⟨.number (.int n), rfl, rfl⟩⟩

instance : Serde Bool where
  toValue b := .ok (.bool b)
  fromValue
    | .bool b => .ok b
    | v => .error (invalidType (unexpected v) "a boolean")

instance : LawfulSerde Bool := ⟨fun b => ⟨.bool b, rfl, rfl⟩⟩

/-- `i64`, for the integers it holds. -/
instance : Serde Int where
  toValue n := .ok (.number (.int n))
  fromValue
    | .number (.int n) => .ok n
    | v => .error (invalidType (unexpected v) "i64")

instance : LawfulSerde Int := ⟨fun n => ⟨.number (.int n), rfl, rfl⟩⟩

/-- `Option<T>` writes `None` as `null`, and reads `null` as `None` before it looks at `T`. -/
instance {T : Type} [Serde T] : Serde (Option T) where
  toValue
    | none => .ok .null
    | some v => toValue v
  fromValue
    | .null => .ok none
    | v => (fromValue v).map some

/-- A pair is written as a two-element array. -/
instance {S T : Type} [Serde S] [Serde T] : Serde (S × T) where
  toValue p := do
    let a ← toValue p.1
    let b ← toValue p.2
    return .array [a, b]
  fromValue
    | .array [a, b] => do
        let x ← fromValue a
        let y ← fromValue b
        return (x, y)
    | v => .error (invalidType (unexpected v) "a tuple of size 2")

instance {S T : Type} [Serde S] [Serde T] [LawfulSerde S] [LawfulSerde T] :
    LawfulSerde (S × T) where
  roundTrip p := by
    obtain ⟨a, ha, ha'⟩ := LawfulSerde.roundTrip p.1
    obtain ⟨b, hb, hb'⟩ := LawfulSerde.roundTrip p.2
    refine ⟨.array [a, b], ?_, ?_⟩
    · simp [toValue, ha, hb, bind, Except.bind, pure, Except.pure]
    · simp [fromValue, ha', hb', bind, Except.bind, pure, Except.pure]

/-! ## Fields of a struct -/

/-- A field that has to be there. -/
def required (T : Type) [Serde T] (fields : List (String × Value)) (name : String) :
    Except String T :=
  match Value.field fields name with
  | some v => fromValue v
  | none => .error ("missing field `" ++ name ++ "`")

/-- A field that is left at its default when it is absent. -/
def optional (T : Type) [Serde T] (absent : T) (fields : List (String × Value)) (name : String) :
    Except String T :=
  match Value.field fields name with
  | some v => fromValue v
  | none => .ok absent

variable {T : Type} [Serde T] {fields : List (String × Value)} {v : Value}

theorem required_eq {name : String} {x : T} (hfield : Value.field fields name = some v)
    (hread : fromValue v = .ok x) : required T fields name = .ok x := by
  rw [required, hfield]
  exact hread

theorem optional_eq {absent : T} {name : String} {x : T} (hfield : Value.field fields name = some v)
    (hread : fromValue v = .ok x) : optional T absent fields name = .ok x := by
  rw [optional, hfield]
  exact hread

@[simp] theorem fromValue_option_null : fromValue (T := Option T) .null = .ok none := rfl

/-- Reading anything but `null` at `Option<T>` is reading it at `T`. -/
theorem fromValue_option_of_ne_null (h : v ≠ .null) :
    fromValue (T := Option T) v = (fromValue v).map some := by
  cases v with
  | null => exact absurd rfl h
  | bool | number | string | array | object => rfl

end Serde

end Durare
