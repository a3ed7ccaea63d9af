import Haystack.Json.Tagged
import Haystack.Proofs.Json.Documents
import Haystack.Proofs.Zinc.GivenValues
import Haystack.Proofs.Zinc.Tags

/-
  This file shows that the simple values that JSON stands for
  can be written and read again in grids, apart from units
  that no reader gives and media types with line ends.

  Key definitions include:
    * `Value.HasPlainUnit`
    * `Value.HasLegibleName`

  Main declarations:
    * `Value.isReadable_of_ofJson`
-/

namespace Haystack

------------------------------------------------------------
-- Values that Are Written Plainly
------------------------------------------------------------

namespace Value

/-
  The unit of a number does not start with `_`, and only
  finite numbers have one.
-/
def HasPlainUnit : Value → Prop
| .number n =>
    n.IsLegible ∧ (n.value.IsFinite ∨ n.unit = none)
| _ => True

/- The name of a media type is on one line. -/
def HasLegibleName : Value → Prop
| .bin mime => mime.IsLegible
| _ => True

/- A plain unit is shown by the text of the number. -/
theorem HasPlainUnit.showsUnit
    {v : Value}
    (hv : v.HasPlainUnit) :
    v.ShowsUnit := by
  cases v with
  | number n => exact hv.2
  | _ => trivial

end Value

------------------------------------------------------------
-- Texts that Are One Value
------------------------------------------------------------

/- A value that was read can be read again. -/
theorem Zinc.isReadable_of_decodeValue
    {text : String}
    {v : Value}
    (h : decodeValue text = .ok (some v)) :
    v.IsReadable .builtin .zinc := by
  rcases Scan.readAll_eq_ok h with ⟨d, hScalar⟩
  unfold scalar at hScalar
  rcases Scan.bind_eq_ok.mp hScalar with
    ⟨w, e, hValue, hRest⟩
  rcases Scan.bind_eq_ok.mp hRest with ⟨_, _, _, hPure⟩
  rcases Scan.pure_eq_ok.mp hPure with ⟨rfl, -⟩
  exact (givesValue_value find?_utc hValue).1 v rfl

------------------------------------------------------------
-- Values with a Code
------------------------------------------------------------

theorem Number.isCanonical_of_isNaN
    {n : Number}
    (hn : n.value.isNaN = false) :
    n.IsCanonical := by
  intro hNaN
  rw [hn] at hNaN
  cases hNaN

/- What is finite is a number. -/
theorem Number.isNaN_of_isFinite
    {x : Binary64}
    (hx : x.IsFinite) :
    x.isNaN = false := by
  have hLess : x.magnitude < Binary64.infiniteMagnitude := hx
  exact decide_eq_false (by omega)

/- A number in a text with a code is one of a grid. -/
theorem Number.isCanonical_of_ofCoded
    {body : List Char}
    {n : Number}
    (h : ofCoded body = .ok n)
    (hUnit : n.value.IsFinite ∨ n.unit = none) :
    n.IsCanonical := by
  unfold ofCoded at h
  dsimp only at h
  split at h
  next => cases h
  next m hDigits =>
    have hm := Zinc.isReadable_of_decodeValue hDigits
    split at h
    next =>
      cases h
      exact hm.2
    next name _ =>
      rw [orValueError_eq_ok] at h
      unfold withUnit at h
      cases hName : UnitName.ofText (String.ofList name) with
      | error e =>
          rw [hName] at h
          cases h
      | ok unit =>
          rw [hName] at h
          cases h
          rcases hUnit with hFinite | hNone
          · exact isCanonical_of_isNaN (isNaN_of_isFinite hFinite)
          · cases hNone
  next => cases h

namespace Value

/-
  What a coded text stands for can be read from its own
  text, by the code: each kind has its own way of being
  read.
-/
theorem isReadable_of_ofCode
    {code : Char}
    {body : List Char}
    {v : Value}
    (h : ofCode code body = some (.ok v))
    (hUnit : v.HasPlainUnit)
    (hName : v.HasLegibleName) :
    v.IsReadable .builtin .zinc := by
  unfold ofCode at h
  dsimp only at h
  split at h
  all_goals
    first
    | cases h
    | rw [Option.some.injEq] at h
  · trivial
  · trivial
  · trivial
  · trivial
  · rcases except_map_eq_ok.mp h with ⟨n, hn, rfl⟩
    exact
      ⟨hUnit.1, Number.isCanonical_of_ofCoded hn hUnit.2⟩
  · rcases except_map_eq_ok.mp h with ⟨u, -, rfl⟩
    trivial
  · rcases except_map_eq_ok.mp h with ⟨mime, -, rfl⟩
    exact hName
  · rcases except_map_eq_ok.mp h with ⟨r, -, rfl⟩
    trivial
  · rcases except_map_eq_ok.mp h with ⟨p, hp, rfl⟩
    exact
      Coordinates.isLegible_of_ofText (orValueError_eq_ok.mp hp)
  · rcases except_map_eq_ok.mp h with ⟨d, -, rfl⟩
    trivial
  · rcases except_map_eq_ok.mp h with ⟨t, -, rfl⟩
    trivial
  · rcases except_map_eq_ok.mp h with ⟨x, hx, rfl⟩
    unfold Zinc.decodeDateTime at hx
    split at hx
    next hDecode =>
      cases hx
      exact Zinc.isReadable_of_decodeValue hDecode
    next => cases hx
    next => cases hx

/- What JSON stands for can be read in a grid. -/
theorem isReadable_of_ofJson
    {json : Json}
    {v : Value}
    (hJson : json.HasNumbers)
    (h : ofJson json = .ok (some v))
    (hSimple : v.IsSimple)
    (hUnit : v.HasPlainUnit)
    (hName : v.HasLegibleName) :
    v.IsReadable .builtin .zinc := by
  cases json with
  | null => cases h
  | bool b =>
      cases h
      trivial
  | int n =>
      cases h
      refine ⟨rfl, Number.isCanonical_of_isNaN ?_⟩
      exact Binary64.isNaN_ofRatio ..
  | float x =>
      cases h
      cases hJson with
      | float hx => exact ⟨rfl, Number.isCanonical_of_isNaN hx⟩
  | text s =>
      rw [ofJson] at h
      rcases except_map_eq_ok.mp h with ⟨w, hw, hEq⟩
      cases hEq
      unfold ofJsonString at hw
      split at hw
      next code body _ =>
        cases hCode : ofCode code body with
        | none =>
            rw [hCode] at hw
            cases hw
            trivial
        | some made =>
            rw [hCode, Option.getD_some] at hw
            exact
              isReadable_of_ofCode (hw ▸ hCode) hUnit hName
      next =>
        cases hw
        trivial
  | array items =>
      rw [ofJson] at h
      rcases except_bind_eq_ok.mp h with ⟨values, -, hEq⟩
      cases hEq
      exact absurd rfl hSimple.1
  | object members =>
      rw [ofJson] at h
      rcases except_bind_eq_ok.mp h with ⟨entries, -, hEq⟩
      cases hEq
      exact absurd rfl hSimple.2

end Value

end Haystack
