import Haystack.Json.Tagged
import Haystack.Proofs.Tag.Records
import Haystack.Proofs.Zinc.Alphabets
import Haystack.Proofs.Zinc.Values

/-
  This file shows that a value without parts is found again
  in its JSON: no kind is taken for another, and the texts
  with a code are read again as what they were written for.

  Key definitions include:
    * `Value.IsStored`

  Main declarations:
    * `Binary64.ofInt_wholePart`
    * `Number.ofJson_toJson`
    * `Value.ofJson_toJson_of_isSimple`
-/

namespace Haystack

open Scan

------------------------------------------------------------
-- Whole Numbers
------------------------------------------------------------

/- A whole number other than minus zero is an integer. -/
theorem Binary64.ofInt_wholePart
    {x : Binary64}
    (hx : x.IsFinite)
    (hWhole : x.isWhole = true)
    (hZero : ¬(x.magnitude = 0 ∧ x.isNegative = true)) :
    ofInt (if x.isNegative then -x.wholePart else x.wholePart) =
      x := by
  have hSelf := x.ofMagnitude_self
  have hParts : x.wholePart * x.denominator = x.numerator := by
    rw [isWhole, decide_eq_true_eq] at hWhole
    exact Nat.div_mul_cancel (Nat.dvd_of_mod_eq_zero hWhole)
  have hMagnitude :
      nearestMagnitude x.wholePart 1 = x.magnitude := by
    rw [← nearestMagnitude_self hx]
    apply nearestMagnitude_congr Nat.one_ne_zero
      x.denominator_ne_zero
    rw [hParts, Nat.mul_one]
  cases hNegative : x.isNegative with
  | false =>
      rw [hNegative] at hSelf
      rw [if_neg Bool.false_ne_true, ofInt, ofRatio,
        Int.natAbs_natCast, hMagnitude,
        decide_eq_false (by omega), hSelf]
  | true =>
      have hPos : x.wholePart ≠ 0 := by
        intro hNone
        apply hZero
        refine ⟨?_, hNegative⟩
        rw [← hMagnitude, hNone]
        rfl
      rw [hNegative] at hSelf
      rw [if_pos rfl, ofInt, ofRatio, Int.natAbs_neg,
        Int.natAbs_natCast, hMagnitude,
        decide_eq_true (by omega), hSelf]

------------------------------------------------------------
-- Spaces
------------------------------------------------------------

/- Without a space nothing is split. -/
theorem splitSpace_of_not_mem
    {cs : List Char}
    (hcs : ' ' ∉ cs) :
    splitSpace cs = (cs, none) := by
  induction cs with
  | nil => rfl
  | cons c cs ih =>
      rw [List.mem_cons, not_or] at hcs
      rw [splitSpace, if_neg (Ne.symm hcs.1), ih hcs.2]

/- A text is split at its first space. -/
theorem splitSpace_append
    {cs : List Char}
    (hcs : ' ' ∉ cs)
    (ds : List Char) :
    splitSpace (cs ++ ' ' :: ds) = (cs, some ds) := by
  induction cs with
  | nil => rfl
  | cons c cs ih =>
      rw [List.mem_cons, not_or] at hcs
      rw [List.cons_append, splitSpace, if_neg (Ne.symm hcs.1),
        ih hcs.2]

/- No space stands in the digits of a number. -/
theorem Number.space_not_mem_text (x : Binary64) :
    ' ' ∉ (plain x).text :=
  not_mem_of_all rfl (plain x).all_isNumberChar_text

theorem Ref.space_not_mem_id (r : Ref) :
    ' ' ∉ r.id.toList :=
  not_mem_of_all rfl r.all_isIdChar_id

------------------------------------------------------------
-- Values with a Code
------------------------------------------------------------

instance (n : Number) : Decidable n.IsCanonical := by
  unfold Number.IsCanonical
  infer_instance

namespace Value

/-
  The value can be kept in JSON: it is no place, what is not
  finite has no unit and one form, and the text of a date-time
  is one that is read.
-/
def IsStored : Value → Prop
| .coord _ => False
| .number n =>
    (n.value.IsFinite ∨ n.unit = none) ∧ n.IsCanonical
| .dateTime x => x.HasShortOffset ∧ x.IsLegible .builtin
| _ => True

/- What a code and a text stand for is read from both. -/
theorem ofJson_coded
    {code : Char}
    {body : List Char}
    {v : Value}
    (hCode : ofCode code body = some (.ok v)) :
    ofJson (.coded code body) = .ok (some v) := by
  unfold Json.coded
  rw [ofJson, ofJsonString, String.toList_ofList]
  simp only [hCode]
  rfl

/- A text is taken for no other kind. -/
theorem ofJson_textToJson (s : String) :
    ofJson (textToJson s) = .ok (some (.str s)) := by
  unfold textToJson
  split
  next =>
    apply ofJson_coded
    rw [ofCode, String.ofList_toList]
  next hPlain =>
    rw [ofJson, ofJsonString]
    split
    next code body hText => exact absurd hText (hPlain code body)
    next => rfl

end Value

------------------------------------------------------------
-- Numbers
------------------------------------------------------------

namespace Number

/- The digits of a number are read as the number. -/
theorem decodeValue_plain
    {x : Binary64}
    (hx : (plain x).IsCanonical) :
    Zinc.decodeValue (String.ofList (plain x).text) =
      .ok (some (.number (plain x))) := by
  apply Zinc.decodeValue_of_reads
  by_cases hFinite : x.IsFinite
  · have hLegible : (plain x).IsLegible := rfl
    exact
      Zinc.reads_value_finite .builtin .zinc hFinite hLegible
        Zinc.endsValue_nil
  · exact
      Zinc.reads_value_special (n := plain x) hFinite hx
        Zinc.endsValue_nil

/- A JSON number is read as the finite number it is for. -/
theorem ofJson_plainJson
    {x : Binary64}
    (hx : x.IsFinite) :
    Value.ofJson (plainJson x) =
      .ok (some (.number (plain x))) := by
  unfold plainJson
  by_cases hZero : x.magnitude = 0 ∧ x.isNegative = true
  · rw [if_pos hZero]
    rfl
  by_cases hWhole : x.isWhole = true ∧ x.wholePart < exactBound
  · rw [if_neg hZero, if_pos hWhole, Value.ofJson,
      Binary64.ofInt_wholePart hx hWhole.1 hZero]
  · rw [if_neg hZero, if_neg hWhole]
    rfl

/- A number without a unit is read from its text. -/
theorem ofCoded_plain
    {x : Binary64}
    (hx : (plain x).IsCanonical) :
    ofCoded (plain x).text = .ok (plain x) := by
  unfold ofCoded
  rw [splitSpace_of_not_mem (space_not_mem_text x)]
  simp only [decodeValue_plain hx]
  rfl

/- A unit is read behind the space. -/
theorem ofCoded_unit
    {x : Binary64}
    (hx : (plain x).IsCanonical)
    (unit : UnitName) :
    ofCoded ((plain x).text ++ [' '] ++ unit.text.toList) =
      .ok ⟨x, some unit⟩ := by
  have hUnit : UnitName.ofText unit.text = .ok unit := by
    rw [UnitName.ofText, dif_pos unit.valid]
  unfold ofCoded
  rw [List.append_assoc, List.singleton_append,
    splitSpace_append (space_not_mem_text x)]
  simp only [decodeValue_plain hx, String.ofList_toList,
    withUnit, hUnit]
  rfl

/- A number is found again with all bits and its unit. -/
theorem ofJson_toJson
    {n : Number}
    (hUnit : n.value.IsFinite ∨ n.unit = none)
    (hn : n.IsCanonical) :
    Value.ofJson n.toJson = .ok (some (.number n)) := by
  rcases n with ⟨x, unit⟩
  unfold toJson
  dsimp only at hUnit ⊢
  by_cases hFinite : x.IsFinite
  · have hCanonical : (plain x).IsCanonical := by
      intro hNaN
      have hMagnitude : x.magnitude < _ := hFinite
      have hMore : _ < x.magnitude := of_decide_eq_true hNaN
      omega
    rw [if_pos hFinite]
    cases unit with
    | none => exact ofJson_plainJson hFinite
    | some unit =>
        apply Value.ofJson_coded
        rw [Value.ofCode, ofCoded_unit hCanonical unit]
        rfl
  · have hNone : unit = none := hUnit.resolve_left hFinite
    subst hNone
    rw [if_neg hFinite]
    apply Value.ofJson_coded
    rw [Value.ofCode, ofCoded_plain hn]
    rfl

end Number

------------------------------------------------------------
-- Simple Values
------------------------------------------------------------

/- A reference is read back with its label. -/
theorem Ref.ofCoded_toJson (r : Ref) :
    Value.ofJson r.toJson = .ok (some (.ref r)) := by
  have hSpace := r.space_not_mem_id
  rcases r with ⟨id, dis, valid⟩
  apply Value.ofJson_coded
  rw [Value.ofCode, ofCoded]
  cases dis with
  | none =>
      rw [List.append_nil, splitSpace_of_not_mem hSpace]
      simp only [String.ofList_toList, ofText, dif_pos valid]
      rfl
  | some dis =>
      rw [splitSpace_append hSpace]
      simp only [String.ofList_toList, ofText, dif_pos valid,
        Option.map_some]
      rfl

/-
  A value without parts is found again; only the zone of a
  date-time is the one that is known by its name.
-/
theorem Value.ofJson_toJson_of_isSimple
    {v : Value}
    (hSimple : v.IsSimple)
    (hv : v.IsStored) :
    ofJson v.toJson =
      .ok (some (v.asRead .builtin .zinc)) := by
  cases v with
  | marker => rfl
  | remove => rfl
  | na => rfl
  | bool b => rfl
  | number n =>
      rw [toJson, Number.ofJson_toJson hv.1 hv.2, asRead_number]
      split_ifs with hFinite
      · rfl
      · have hUnit := hv.1.resolve_left hFinite
        rcases n with ⟨x, unit⟩
        cases hUnit
        rfl
  | str s => exact ofJson_textToJson s
  | uri u =>
      apply ofJson_coded
      rw [ofCode, String.ofList_toList, u.ofText_address]
      rfl
  | bin mime =>
      apply ofJson_coded
      rw [ofCode, String.ofList_toList, mime.ofText_name]
      rfl
  | coord p => cases hv
  | date d =>
      apply ofJson_coded
      rw [ofCode, Zinc.decodeDate,
        Zinc.decodeValue_of_reads
          (Zinc.reads_value_date d Zinc.endsValue_nil)]
      rfl
  | time t =>
      apply ofJson_coded
      rw [ofCode, Zinc.decodeTime,
        Zinc.decodeValue_of_reads
          (Zinc.reads_value_time t Zinc.endsValue_nil)]
      rfl
  | dateTime x =>
      apply ofJson_coded
      rw [ofCode, Zinc.decodeDateTime,
        Zinc.decodeValue_of_reads
          (Zinc.reads_value_dateTime hv.2 hv.1
            Zinc.endsValue_nil)]
      rfl
  | ref r => exact r.ofCoded_toJson
  | list items => exact absurd rfl hSimple.1
  | dict d => exact absurd rfl hSimple.2

end Haystack
