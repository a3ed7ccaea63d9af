import Haystack.Proofs.Filter.Dependence

/-
  This file shows that filters do not look at the labels of
  references: records whose values differ in labels alone are
  included by the same filters, if references lead to records
  of which that is true as well.

  Key definitions include:
    * `Value.EqButLabel`
    * `Record.AgreesWith`
    * `Resolver.Agree`

  Main declarations:
    * `Record.AgreesWith.same`
    * `Filter.includes_eq_of_agreesWith`
-/

namespace Haystack

------------------------------------------------------------
-- Values
------------------------------------------------------------

namespace Value

/- The values are equal, or references to the same record. -/
inductive EqButLabel : Value → Value → Prop where
| refl (v : Value) : EqButLabel v v
| ref {r r' : Ref} (hId : r.id = r'.id) :
    EqButLabel (.ref r) (.ref r')

theorem EqButLabel.trans
    {u v w : Value}
    (h : EqButLabel u v)
    (h' : EqButLabel v w) :
    EqButLabel u w := by
  cases h with
  | refl => exact h'
  | ref hId =>
      cases h' with
      | refl => exact .ref hId
      | ref hId' => exact .ref (hId.trans hId')

/- A label is no part of what is the same. -/
theorem EqButLabel.alike
    {v w : Value}
    (h : EqButLabel v w) :
    v.Alike w := by
  cases h with
  | refl => exact .refl v
  | ref hId =>
      exact
        Or.inr
          ⟨decide_eq_true hId, decide_eq_true hId.symm⟩

/-
  A value that is the same as itself is the same as one that
  differs in labels.
-/
theorem EqButLabel.same
    {v w : Value}
    (h : EqButLabel v w)
    (hw : (w == w) = true) :
    (v == w) = true := by
  cases h with
  | refl => exact hw
  | ref hId => exact decide_eq_true hId

end Value

------------------------------------------------------------
-- Records
------------------------------------------------------------

/- Under each key the values are equal but for labels. -/
def Record.AgreesWith (a b : Record) : Prop :=
  ∀ key,
    Option.Rel Value.EqButLabel (a.get? key) (b.get? key)

/- The records found are the same but for labels. -/
def Resolver.Agree (resolve resolve' : Resolver) : Prop :=
  ∀ id,
    Option.Rel Record.AgreesWith (resolve id) (resolve' id)

/- Records agree if the same is found in both by any key. -/
theorem Record.agreesWith_of_get?_eq
    {a b : Record}
    (h : ∀ key, a.get? key = b.get? key) :
    a.AgreesWith b := by
  intro key
  rw [h key]
  exact rel_self .refl _

theorem Record.AgreesWith.trans
    {a b c : Record}
    (h : a.AgreesWith b)
    (h' : b.AgreesWith c) :
    a.AgreesWith c := by
  intro key
  match a.get? key, b.get? key, c.get? key, h key, h' key with
  | _, _, _, .none, .none => exact .none
  | _, _, _, .some hValue, .some hValue' =>
      exact .some (hValue.trans hValue')

/- Records that agree are the same. -/
theorem Record.AgreesWith.same
    {a b : Record}
    (h : a.AgreesWith b)
    (ha : a.HasUniqueKeys)
    (hb : b.HasUniqueKeys)
    (hSelf : ∀ e ∈ b.entries, (e.2 == e.2) = true) :
    (a == b) = true := by
  rw [Record.same_iff ha hb]
  intro key
  match a.get? key, hGet : b.get? key, h key with
  | _, _, .none => exact .none
  | _, _, .some hValue =>
      have he := (Dict.mem_entries_iff hb key _).mpr hGet
      exact .some (hValue.same (hSelf _ he))

theorem Resolver.Agree.refl (resolve : Resolver) :
    Resolver.Agree resolve resolve := by
  intro id
  exact
    rel_self (fun _ => Record.agreesWith_of_get?_eq fun _ => rfl)
      (resolve id)

/- References of both lead to records with the same id. -/
theorem Record.AgreesWith.map_id_ref?
    {a b : Record}
    (h : a.AgreesWith b)
    (key : String) :
    (ref? a key).map Ref.id = (ref? b key).map Ref.id := by
  unfold ref?
  match a.get? key, b.get? key, h key with
  | _, _, .none => rfl
  | _, _, .some (.refl _) => rfl
  | _, _, .some (.ref hId) => exact congrArg some hId

/- Labels do not make tags unlike. -/
theorem Record.AgreesWith.tagsAlike
    {a b : Record}
    (h : a.AgreesWith b) :
    a.TagsAlike b :=
  fun key => rel_imp Value.EqButLabel.alike (h key)

------------------------------------------------------------
-- Filters
------------------------------------------------------------

/- What agrees is alike, and so included by both or neither. -/
theorem Filter.includes_eq_of_agreesWith
    {resolve resolve' : Resolver}
    (hResolve : Resolver.Agree resolve resolve')
    {a b : Record}
    (h : a.AgreesWith b)
    (f : Filter) :
    f.includes resolve a = f.includes resolve' b :=
  includes_eq_of_rel (fun p _ => h.tagsAlike p.first.text)
    (Or.inr
      (fun id =>
        rel_imp Record.AgreesWith.tagsAlike (hResolve id)))

end Haystack
