import Durare.Foundations.Error

/-!
# Foundations/Serialize — how values and errors become stored text

The SQL backends keep every value as text, tagged with the name of the serializer that wrote it.
`Serializer` is the codec of a backend, `decode` reads by the tag of the row, and `encodeError` /
`decodeError` do the same for the error column, where only the portable format keeps any structure.

JSON text and base64 are the work of other crates: `TextCodec` is what they compute, and
`TextCodec.Lawful` is what is assumed of them.
-/

namespace Durare

/-- JSON text and base64, as `serde_json` and `base64` compute them. -/
structure TextCodec where
  toText : Value → String
  fromText : String → Except String Value
  base64 : String → String
  unbase64 : String → Except String String

/-- The name tag of plain JSON. -/
def PORTABLE : String := "portable_json"

/-- The name tag of base64 JSON. -/
def DBOS_JSON : String := "DBOS_JSON"

/-- How base64 JSON marks a null. -/
def NIL_MARKER : String := "__DBOS_NIL"

/-- The `name` an error without structure of its own gets in the portable envelope. -/
def PORTABLE_ERROR_NAME : String := "Portable Error"

/-- Text round-trips, `null` is the text of null, and no base64 text is the nil marker — the
marker has underscores, which the standard alphabet lacks. -/
structure TextCodec.Lawful (X : TextCodec) : Prop where
  fromText_toText : ∀ v, X.fromText (X.toText v) = .ok v
  unbase64_base64 : ∀ s, X.unbase64 (X.base64 s) = .ok s
  toText_null : X.toText .null = "null"
  base64_ne_nil : ∀ s, X.base64 s ≠ NIL_MARKER

/-- A codec for runs that encode nothing but nulls. -/
def noText : TextCodec := ⟨fun _ => "", fun _ => .error "", id, .ok⟩

/-! ## Serializers -/

/-- The codec of a backend, `Serializer`. -/
inductive Serializer where
  | json
  | portable
  | custom (name : String) (encode : Value → Except Error String)
      (decode : String → Except Error Value)

variable (X : TextCodec)

namespace Serializer

/-- The tag rows get. -/
def name : Serializer → String
  | json => DBOS_JSON
  | portable => PORTABLE
  | custom n _ _ => n

/-- `Serializer::encode`. -/
def encode : Serializer → Value → Except Error String
  | portable, v => .ok (if v.isNull then "null" else X.toText v)
  | json, v => .ok (if v.isNull then NIL_MARKER else X.base64 (X.toText v))
  | custom _ enc _, v => enc v

end Serializer

/-- Read a stored value by the tag of its row, `decode`. -/
def decode (s : Serializer) (format : Option String) (stored : String) : Except Error Value :=
  let fmt := format.getD ""
  if fmt = PORTABLE then
    if stored = "null" then .ok .null else (X.fromText stored).mapError .serde
  else
    match s with
    | .custom n _ dec => if n = fmt then dec stored else decodeBuiltin fmt
    | _ => decodeBuiltin fmt
where
  /-- the formats that need no codec of the backend's own -/
  decodeBuiltin (fmt : String) : Except Error Value :=
    if fmt = "" ∨ fmt = DBOS_JSON then
      if stored = NIL_MARKER then .ok .null
      else match X.unbase64 stored with
        | .error e => .error (.serialization ("invalid base64 in " ++ DBOS_JSON ++ " value: " ++ e))
        | .ok text => (X.fromText text).mapError .serde
    else .error (.serialization ("value uses serialization format \"" ++ fmt ++
      "\", which this SDK cannot decode; use " ++ PORTABLE ++
      " for cross-language interop, or configure a matching custom serializer"))

/-- Whether a serializer is one of the two that come with the library. -/
def Serializer.BuiltIn : Serializer → Prop
  | .json | .portable => True
  | .custom _ _ _ => False

/-- A serializer that does not read the formats of those two in a way of its own. -/
def Serializer.Neutral : Serializer → Prop
  | .json | .portable => True
  | .custom n _ _ => n ≠ DBOS_JSON ∧ n ≠ PORTABLE

theorem Serializer.BuiltIn.neutral {s : Serializer} (h : s.BuiltIn) : s.Neutral := by
  cases s with
  | json | portable => trivial
  | custom => exact h.elim

/-- What is needed of the text of one value. -/
structure TextCodec.Carries (v : Value) : Prop where
  fromText_toText : X.fromText (X.toText v) = .ok v
  unbase64_base64 : X.unbase64 (X.base64 (X.toText v)) = .ok (X.toText v)
  toText_ne_null : v ≠ .null → X.toText v ≠ "null"
  base64_ne_nil : X.base64 (X.toText v) ≠ NIL_MARKER

variable {X}

/-- A null is written as a marker that only a null is written as. -/
theorem TextCodec.Lawful.carries (hX : X.Lawful) (v : Value) : X.Carries v := by
  refine ⟨hX.fromText_toText v, hX.unbase64_base64 _, fun h htext => ?_, hX.base64_ne_nil _⟩
  have hnull := hX.fromText_toText .null
  rw [hX.toText_null, ← htext, hX.fromText_toText v] at hnull
  exact h (Except.ok.inj hnull)

/-- **What a built-in serializer wrote is read back**, whatever serializer the reader has. -/
theorem decode_encode {s r : Serializer} {v : Value} (hv : X.Carries v) (hs : s.BuiltIn)
    (hr : r.Neutral) : ∃ text, s.encode X v = .ok text ∧ decode X r (some s.name) text = .ok v := by
  cases s with
  | json =>
    have hdecode : ∀ text, decode X r (some DBOS_JSON) text = decode.decodeBuiltin X
        text DBOS_JSON := by
      intro text
      cases r with
      | json | portable => rfl
      | custom n => exact if_neg hr.1
    by_cases hnull : v = .null
    · subst hnull
      exact ⟨NIL_MARKER, rfl, hdecode NIL_MARKER⟩
    · refine ⟨X.base64 (X.toText v), ?_, (hdecode _).trans ?_⟩
      · simp [Serializer.encode, Value.isNull_eq_false.mpr hnull]
      · simp [decode.decodeBuiltin, hv.base64_ne_nil, hv.unbase64_base64, hv.fromText_toText,
          Except.mapError]
  | portable =>
    by_cases hnull : v = .null
    · subst hnull
      exact ⟨"null", rfl, rfl⟩
    · refine ⟨X.toText v, ?_, ?_⟩
      · simp [Serializer.encode, Value.isNull_eq_false.mpr hnull]
      · simp [decode, Serializer.name, hv.toText_ne_null hnull, hv.fromText_toText, Except.mapError]
  | custom n enc dec => exact hs.elim

variable (X)

/-! ## Errors -/

namespace PortableWorkflowError

/-- The envelope as JSON: `code` and `data` are left out when absent. -/
def toValue (e : PortableWorkflowError) : Value :=
  .object ([("name", .string e.name), ("message", .string e.message)] ++
    (e.code.map fun c => ("code", c)).toList ++ (e.data.map fun d => ("data", d)).toList)

/-- An optional field: absent and `null` are both `None`. -/
def optional : Option Value → Option Value
  | none | some .null => none
  | some v => some v

/-- Read an envelope back: `name` and `message` are required, other fields are ignored. -/
def fromValue : Value → Option PortableWorkflowError
  | .object fields => match Value.field fields "name", Value.field fields "message" with
    | some (.string n), some (.string m) =>
      some ⟨n, m, optional (Value.field fields "code"), optional (Value.field fields "data")⟩
    | _, _ => none
  | .array (.string n :: .string m :: rest) => match rest with
    | [] => some ⟨n, m, none, none⟩
    | [c] => some ⟨n, m, optional (some c), none⟩
    | [c, d] => some ⟨n, m, optional (some c), optional (some d)⟩
    | _ => none
  | _ => none

/-- **An envelope is read back**, but for a `code` or `data` of `null`, which comes back absent. -/
theorem fromValue_toValue (e : PortableWorkflowError) :
    fromValue e.toValue = some { e with code := optional e.code, data := optional e.data } := by
  obtain ⟨n, m, c, d⟩ := e
  cases c <;> cases d <;> rfl

end PortableWorkflowError

/-- The text an error is checkpointed as, `encode_error`: its message, or under the portable
serializer an envelope around it. -/
def encodeError (s : Serializer) (err : Error) : String :=
  match s with
  | .portable =>
    let envelope := match err with
      | .portable pe => pe
      | other => ⟨PORTABLE_ERROR_NAME, other.message, none, none⟩
    X.toText envelope.toValue
  | _ => err.message

/-- Read a checkpointed error, `decode_error`: the message, and the envelope when there is one. -/
def decodeError (format : Option String) (stored : String) :
    String × Option PortableWorkflowError :=
  if format = some PORTABLE then
    match (X.fromText stored).toOption.bind PortableWorkflowError.fromValue with
    | some env => (env.message, some env)
    | none => (stored, none)
  else (stored, none)

/-! ## Optional columns, and inputs -/

/-- `decode_error_opt`. -/
def decodeErrorOpt (format stored : Option String) :
    Option String × Option PortableWorkflowError :=
  match stored with
  | some s => ((decodeError X format s).1, (decodeError X format s).2)
  | none => (none, none)

/-- `decode_opt`. -/
def decodeOpt (s : Serializer) (format stored : Option String) : Except Error (Option Value) :=
  match stored with
  | some text => (decode X s format text).map some
  | none => .ok none

/-- The arguments of an envelope: an object with an array of positional arguments and, unless they
are absent or null, an object of named ones. -/
def asEnvelope : Value → Option (List Value × List (String × Value))
  | .object fields => match Value.field fields "positionalArgs", Value.field fields "namedArgs" with
    | some (.array positional), some (.object named) => some (positional, named)
    | some (.array positional), none | some (.array positional), some .null => some (positional, [])
    | _, _ => none
  | _ => none

/-- The text a workflow's input is stored as: under the portable serializer an arguments
envelope. -/
def encodeInput (s : Serializer) (value : Value) : Except Error String :=
  match s with
  | .portable =>
    let (positional, named) := (asEnvelope value).getD ([value], [])
    .ok (X.toText (.object [("positionalArgs", .array positional), ("namedArgs", .object named)]))
  | _ => s.encode X value

/-- The first positional argument of an envelope; any other value is itself. -/
def firstPositional (value : Value) : Value :=
  match asEnvelope value with
  | some (arg :: _, _) => arg
  | some ([], _) => .null
  | none => value

def decodeInput (s : Serializer) (format : Option String) (stored : String) : Except Error Value :=
  (decode X s format stored).map fun v => if format = some PORTABLE then firstPositional v else v

end Durare
