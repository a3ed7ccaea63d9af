import Haystack.Json.Reading
import Haystack.Proofs.Binary64.Rounding
import Haystack.Proofs.Binary64.Shortest
import Haystack.Proofs.Text.Takes

/-
  This file shows that the numbers of a JSON document that is
  read are numbers: no numeral and no rounding makes one that
  is none.

  Key definitions include:
    * `Json.HasNumbers`

  Main declarations:
    * `Json.Numeral.isNaN_of_float?`
    * `Json.hasNumbers_of_parse`
-/

namespace Haystack

/- Rounding a ratio makes a number. -/
theorem Binary64.isNaN_ofRatio
    (negative : Bool)
    (n d : Nat) :
    (ofRatio negative n d).isNaN = false := by
  have hLe := nearestMagnitude_le_infinite n d
  have hLess : infiniteMagnitude < signWeight := by decide
  rw [isNaN, ofRatio, magnitude_ofMagnitude _ (by omega)]
  exact decide_eq_false (by omega)

namespace Json

/- All numbers of the document are numbers. -/
inductive HasNumbers : Json → Prop
| null : HasNumbers .null
| bool (b : Bool) : HasNumbers (.bool b)
| int (n : Int) : HasNumbers (.int n)
| float {x : Binary64} :
    x.isNaN = false → HasNumbers (.float x)
| text (s : String) : HasNumbers (.text s)
| array {items : List Json} :
    (∀ json ∈ items, HasNumbers json) →
      HasNumbers (.array items)
| object {members : List (String × Json)} :
    (∀ m ∈ members, HasNumbers m.2) →
      HasNumbers (.object members)

------------------------------------------------------------
-- Numerals
------------------------------------------------------------

namespace Numeral

theorem isNaN_signed
    (negative : Bool)
    (x : Binary64) :
    (signed negative x).isNaN = x.isNaN := by
  have hLess : x.magnitude < Binary64.signWeight :=
    Nat.mod_lt _ (by decide)
  rw [Binary64.isNaN, signed,
    Binary64.magnitude_ofMagnitude _ hLess, Binary64.isNaN]

/- Scaling multiplies and divides, and rounds each time. -/
theorem isNaN_of_scale?
    {x y : Binary64}
    {exponent : Int}
    (hx : x.isNaN = false)
    (h : scale? x exponent = some y) :
    y.isNaN = false := by
  fun_induction scale? x exponent with
  | case1 => rwa [← Option.some.inj h]
  | case2 => cases h
  | case3 => cases h
  | case4 =>
      rw [← Option.some.inj h]
      exact Binary64.isNaN_ofRatio ..
  | case5 => rwa [← Option.some.inj h]
  | case6 x exponent _ _ _ ih =>
      exact ih (Binary64.isNaN_ofRatio ..) h
  | case7 =>
      rw [← Option.some.inj h]
      exact Binary64.isNaN_ofRatio ..

/- No numeral of a document stands for what is no number. -/
theorem isNaN_of_float?
    {n : Numeral}
    {x : Binary64}
    (h : n.float? = some x) :
    x.isNaN = false := by
  unfold float? at h
  dsimp only at h
  split_ifs at h
  · cases h
    rw [isNaN_signed]
    rfl
  all_goals
    rcases Option.map_eq_some_iff.mp h with ⟨y, hy, rfl⟩
    rw [isNaN_signed]
    exact isNaN_of_scale? (Binary64.isNaN_ofRatio ..) hy

/- So what it makes has numbers only. -/
theorem hasNumbers_of_value?
    {n : Numeral}
    {json : Json}
    (h : n.value? = some json) :
    json.HasNumbers := by
  unfold value? at h
  split at h
  · cases h
    exact .int _
  · rcases Option.map_eq_some_iff.mp h with ⟨x, hx, rfl⟩
    exact .float (isNaN_of_float? hx)

end Numeral

------------------------------------------------------------
-- Documents
------------------------------------------------------------

open Scan

theorem gives_malformed
    {α : Type}
    (P : α → Prop) :
    Gives malformed P :=
  nofun

/- What each item that is read has, all between marks have. -/
theorem gives_enclosed
    {α : Type}
    {item : Scan α}
    {P : α → Prop}
    (hItem : Gives item P)
    (closing : Char) :
    Gives (enclosed closing item)
      (fun items => ∀ a ∈ items, P a) := by
  have hMore :
      Gives
        (do
          if ← more closing then return some (← item)
          else return none)
        (fun item => ∀ a ∈ item, P a) := by
    refine gives_bind fun goesOn => ?_
    cases goesOn with
    | false => exact gives_pure (by simp)
    | true =>
        exact hItem.bind fun a ha => gives_pure (by simpa)
  unfold enclosed
  refine gives_bind fun _ => gives_bind fun _ => ?_
  refine gives_bind fun isEmpty => ?_
  cases isEmpty with
  | true => exact gives_pure (by simp)
  | false =>
      refine hItem.bind fun first hFirst => ?_
      refine hMore.collect.bind fun others hOthers => ?_
      apply gives_pure
      rw [List.forall_mem_cons]
      exact ⟨hFirst, hOthers⟩

/- Texts and words have no numbers that are none. -/
theorem gives_atom : Gives atom HasNumbers := by
  unfold atom
  refine gives_bind fun head => ?_
  split
  · exact gives_bind fun _ => gives_pure .null
  · exact gives_bind fun _ => gives_pure (.bool true)
  · exact gives_bind fun _ => gives_pure (.bool false)
  · exact gives_bind fun s => gives_pure (.text s)
  · unfold number
    refine gives_bind fun n => ?_
    split
    next json hValue =>
      exact gives_pure (Numeral.hasNumbers_of_value? hValue)
    next => exact gives_malformed _

/- A member with numbers only can be put in. -/
theorem hasNumbers_putMember
    {name : String}
    {json : Json}
    {members : List (String × Json)}
    (hJson : json.HasNumbers)
    (hMembers : ∀ m ∈ members, m.2.HasNumbers) :
    ∀ m ∈ putMember name json members, m.2.HasNumbers := by
  induction members with
  | nil => simpa [putMember] using hJson
  | cons m members ih =>
      rcases m with ⟨key, old⟩
      rw [List.forall_mem_cons] at hMembers
      rw [putMember]
      split_ifs
      · rw [List.forall_mem_cons]
        exact ⟨hJson, hMembers.2⟩
      · rw [List.forall_mem_cons, List.forall_mem_cons]
        exact ⟨hJson, hMembers⟩
      · rw [List.forall_mem_cons]
        exact ⟨hMembers.1, ih hMembers.2⟩

/- An object has numbers only if its members do. -/
theorem hasNumbers_ofMembers
    {members : List (String × Json)}
    (h : ∀ m ∈ members, m.2.HasNumbers) :
    (ofMembers members).HasNumbers := by
  refine .object ?_
  refine
    List.foldlRecOn (motive := fun ms : List (String × Json) =>
      ∀ m ∈ ms, m.2.HasNumbers) members _ (by simp) ?_
  intro ms hMembers m hm
  exact hasNumbers_putMember (h m hm) hMembers

/- By induction on the depth, all documents inside are fine. -/
theorem gives_valueWithin (depth : Nat) :
    Gives (valueWithin depth) HasNumbers := by
  induction depth with
  | zero => exact gives_bind fun _ => gives_atom
  | succ depth ih =>
      have hMember :
          Gives (member (valueWithin depth))
            (fun m => m.2.HasNumbers) := by
        unfold member
        refine gives_bind fun _ => gives_bind fun name => ?_
        refine gives_bind fun _ => gives_bind fun _ => ?_
        exact ih.bind fun json hJson => gives_pure hJson
      unfold valueWithin
      refine gives_bind fun _ => gives_bind fun head => ?_
      split
      · exact
          (gives_enclosed ih _).bind fun _ hItems =>
            gives_pure (.array hItems)
      · exact
          (gives_enclosed hMember _).bind fun _ hMembers =>
            gives_pure (hasNumbers_ofMembers hMembers)
      · exact gives_atom

/- Every document that is read has numbers only. -/
theorem hasNumbers_of_parse
    {source : String}
    {json : Json}
    (h : parse source = .ok json) :
    json.HasNumbers := by
  have hDocument : Gives document HasNumbers := by
    unfold document
    refine (gives_valueWithin _).bind fun json hJson => ?_
    exact
      gives_bind fun _ => gives_bind fun _ => gives_pure hJson
  unfold parse at h
  split at h
  next read hAll =>
    cases h
    rcases readAll_eq_ok hAll with ⟨d, hRead⟩
    exact hDocument _ _ _ hRead
  next => cases h

end Json

end Haystack
