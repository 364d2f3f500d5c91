import Durare.Store.Transfer

/-!
# Transfer/Texts — what was stored is read back, whoever reads it

The tag of a row says which of the built-in serializers wrote it, and every reader without a codec
of its own under one of their names reads it by the tag.  `TextCodec.Documented` is what JSON text
and the base64 alphabet rule out: no text of a value is the entry that seals a stream, and no base64
is one of the markers.
-/

namespace Durare

open Memory (STREAM_CLOSED_SENTINEL)

/-- JSON text does not begin with an underscore, `null` is the text of null, and the standard base64
alphabet has no underscore. -/
structure TextCodec.Documented (X : TextCodec) : Prop where
  fromText_underscore : ∀ text v, X.fromText text = .ok v → text.toList.head? ≠ some '_'
  fromText_null : X.fromText "null" = .ok .null
  base64_alphabet : ∀ text, '_' ∉ (X.base64 text).toList

/-- The text of the value is read back, and its base64 is. -/
structure TextCodec.Reads (X : TextCodec) (v : Value) : Prop where
  text : X.fromText (X.toText v) = .ok v
  base64 : X.unbase64 (X.base64 (X.toText v)) = .ok (X.toText v)

variable {X : TextCodec} {s r : Serializer} {v : Value}

theorem TextCodec.Documented.toText_ne_sentinel (hX : X.Documented)
    (hv : X.fromText (X.toText v) = .ok v) : X.toText v ≠ STREAM_CLOSED_SENTINEL := by
  intro heq
  refine hX.fromText_underscore _ v hv ?_
  rw [heq]
  decide

theorem TextCodec.Documented.base64_ne (hX : X.Documented) {text marker : String}
    (h : '_' ∈ marker.toList) : X.base64 text ≠ marker := fun heq =>
  hX.base64_alphabet text (heq ▸ h)

theorem TextCodec.Documented.carries (hX : X.Documented) (hv : X.Reads v) : X.Carries v := by
  refine ⟨hv.text, hv.base64, fun hnull htext => ?_, hX.base64_ne (by decide)⟩
  have hread := hv.text
  rw [htext, hX.fromText_null] at hread
  exact hnull (Except.ok.inj hread).symm

/-- **No stored value is taken for the end of its stream.** -/
theorem encode_ne_sentinel (hX : X.Documented) (hv : X.Reads v) (hs : s.BuiltIn) :
    s.encode X v ≠ .ok STREAM_CLOSED_SENTINEL := by
  intro h
  cases s with
  | json =>
    rw [Serializer.encode, Except.ok.injEq] at h
    split_ifs at h
    · exact absurd h (by decide)
    · exact hX.base64_ne (by decide) h
  | portable =>
    rw [Serializer.encode, Except.ok.injEq] at h
    split_ifs at h
    · exact absurd h (by decide)
    · exact hX.toText_ne_sentinel hv.text h
  | custom => exact hs

/-! ## Inputs -/

/-- The envelope a portable input is stored in. -/
def envelopeOf (v : Value) : Value :=
  let (positional, named) := (asEnvelope v).getD ([v], [])
  .object [("positionalArgs", .array positional), ("namedArgs", .object named)]

/-- What a workflow should get of its input: of an envelope, under the portable serializer, the
first positional argument. -/
def inputRead : Serializer → Value → Value
  | .portable, v => match asEnvelope v with
    | some (args, _) => args.headD .null
    | none => v
  | _, v => v

theorem firstPositional_envelopeOf (v : Value) :
    firstPositional (envelopeOf v) = inputRead .portable v := by
  rw [envelopeOf, inputRead]
  cases asEnvelope v with
  | none => rfl
  | some args => obtain ⟨_ | _, named⟩ := args <;> rfl

theorem decodeInput_encodeInput (hX : X.Documented) (hv : X.Reads v)
    (henvelope : X.Reads (envelopeOf v)) (hs : s.BuiltIn) (hr : r.Neutral) :
    ∃ text, encodeInput X s v = .ok text ∧
      decodeInput X r (some s.name) text = .ok (inputRead s v) := by
  cases s with
  | json =>
    obtain ⟨text, hencode, hdecode⟩ := decode_encode (hX.carries hv) hs hr
    refine ⟨text, hencode, ?_⟩
    rw [decodeInput, hdecode]
    rfl
  | portable =>
    refine ⟨X.toText (envelopeOf v), rfl, ?_⟩
    obtain ⟨text, hencode, hdecode⟩ := decode_encode (hX.carries henvelope) hs hr
    obtain rfl : X.toText (envelopeOf v) = text := Except.ok.inj hencode
    rw [decodeInput, hdecode]
    exact congrArg Except.ok (firstPositional_envelopeOf v)
  | custom => exact hs.elim

/-- **What a built-in serializer stored is what any reader gets**: the value, which no other value
is stored like and the end of no stream looks like, and the input. -/
theorem stored_read_back (hX : X.Documented) (hv : X.Reads v) (henvelope : X.Reads (envelopeOf v))
    (hs : s.BuiltIn) (hr : r.Neutral) :
    (∃ text, s.encode X v = .ok text ∧ decode X r (some s.name) text = .ok v ∧
      text ≠ STREAM_CLOSED_SENTINEL ∧ ∀ v', X.Reads v' → s.encode X v' = .ok text → v' = v) ∧
    ∃ text, encodeInput X s v = .ok text ∧
      decodeInput X r (some s.name) text = .ok (inputRead s v) := by
  refine ⟨?_, decodeInput_encodeInput hX hv henvelope hs hr⟩
  obtain ⟨text, hencode, hdecode⟩ := decode_encode (hX.carries hv) hs hr
  refine ⟨text, hencode, hdecode, fun heq => ?_, fun v' hv' hencode' => ?_⟩
  · exact encode_ne_sentinel hX hv hs (hencode.trans (congrArg Except.ok heq))
  · obtain ⟨text', htext', hdecode'⟩ := decode_encode (hX.carries hv') hs hr
    obtain rfl : text = text' := Except.ok.inj (hencode'.symm.trans htext')
    exact Except.ok.inj (hdecode'.symm.trans hdecode)

/-- The texts of null and of an input that is an envelope, as the two crates write them. -/
def envelopeText : TextCodec where
  toText
    | .null => "null"
    | _ => "\x7b\"positionalArgs\":[true],\"namedArgs\":\x7b\x7d\x7d"
  fromText text :=
    if text = "null" then .ok .null
    else if text = "\x7b\"positionalArgs\":[true],\"namedArgs\":\x7b\x7d\x7d" then
      .ok (envelopeOf (.bool true))
    else .error "expected value"
  base64 _ := "eyJwb3NpdGlvbmFsQXJncyI6W3RydWVdLCJuYW1lZEFyZ3MiOnt9fQ=="
  unbase64 _ := .ok "\x7b\"positionalArgs\":[true],\"namedArgs\":\x7b\x7d\x7d"

theorem documented_envelopeText : envelopeText.Documented where
  fromText_underscore text v h := by
    rw [envelopeText] at h
    dsimp only at h
    split_ifs at h with hnull henvelope
    · rw [hnull]; decide
    · rw [henvelope]; decide
  fromText_null := rfl
  base64_alphabet text := (by decide : '_' ∉ (envelopeText.base64 "").toList)

/-- A workflow started with an envelope gets its argument. -/
theorem stored_read_back_envelope : ∃ text,
    encodeInput envelopeText .portable (envelopeOf (.bool true)) = .ok text ∧
    decodeInput envelopeText .json (some PORTABLE) text = .ok (.bool true) :=
  (stored_read_back (s := .portable) (r := .json) (v := envelopeOf (.bool true))
    documented_envelopeText ⟨rfl, rfl⟩ ⟨rfl, rfl⟩ trivial trivial).2

end Durare
