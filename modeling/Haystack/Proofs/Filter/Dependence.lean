import Haystack.Command.Basic
import Haystack.Proofs.Tag.Sameness

/-
  This file shows what the answer of a filter depends on: on
  the values that its paths find and on nothing else, so on
  the first tags of its paths and, if one of them leads on,
  on the records that references lead to. Without `missing`
  and `not`, finding more values never loses a record.

  Key definitions include:
    * `Record.TagsAlike`
    * `Retains`
    * `Resolver.Retains`
    * `Filter.IsPositive`

  Main declarations:
    * `Path.retains_find?`
    * `Filter.includes_eq_of_find?`
    * `Filter.includes_of_retains`
    * `Filter.includes_eq_of_firstTags`
-/

namespace Haystack

------------------------------------------------------------
-- Values that Comparisons Do Not Tell Apart
------------------------------------------------------------

/-
  Comparisons hold for values that are alike, or for none.
-/
theorem Value.Alike.holds_eq
    {v w : Value}
    (h : v.Alike w)
    (op : Comparison)
    (a : Value) :
    op.holds v a = op.holds w a := by
  unfold Comparison.holds
  rw [h.kind_eq, h.beq_eq, h.compare?_eq]

/- Under each key the records have values that are alike. -/
def Record.TagsAlike (a b : Record) : Prop :=
  ∀ key,
    Option.Rel Value.Alike (a.get? key) (b.get? key)

------------------------------------------------------------
-- What Is Still Found
------------------------------------------------------------

variable {α : Type}

/- What is found before is found after as well. -/
def Retains
    (alike : α → α → Prop)
    (before after : Option α) : Prop :=
  ∀ v, before = some v → ∃ w, after = some w ∧ alike v w

section Found

variable {alike : α → α → Prop}
variable {x y : Option α}

/- What is found in both or in neither is retained. -/
theorem retains_of_rel
    (h : Option.Rel alike x y) :
    Retains alike x y := by
  rintro v rfl
  cases h with
  | some hAlike => exact ⟨_, rfl, hAlike⟩

theorem rel_self
    (hRefl : ∀ v, alike v v)
    (x : Option α) :
    Option.Rel alike x x := by
  cases x with
  | none => exact .none
  | some v => exact .some (hRefl v)

theorem rel_imp
    {alike' : α → α → Prop}
    (hImp : ∀ {v w}, alike v w → alike' v w)
    (h : Option.Rel alike x y) :
    Option.Rel alike' x y := by
  cases h with
  | none => exact .none
  | some hAlike => exact .some (hImp hAlike)

theorem rel_symm
    (hSymm : ∀ {v w}, alike v w → alike w v)
    (h : Option.Rel alike x y) :
    Option.Rel alike y x := by
  cases h with
  | none => exact .none
  | some hAlike => exact .some (hSymm hAlike)

/- What is retained both ways is the same on both sides. -/
theorem rel_of_retains
    (h : Retains alike x y)
    (h' : Retains alike y x) :
    Option.Rel alike x y := by
  cases x with
  | none =>
      cases y with
      | none => exact .none
      | some w =>
          rcases h' w rfl with ⟨v, hv, -⟩
          cases hv
  | some v =>
      rcases h v rfl with ⟨w, rfl, hAlike⟩
      exact .some hAlike

end Found

theorem Record.TagsAlike.symm
    {a b : Record}
    (h : a.TagsAlike b) :
    b.TagsAlike a :=
  fun key => rel_symm Value.Alike.symm (h key)

/- All records found by one are found by the other. -/
def Resolver.Retains (resolve resolve' : Resolver) : Prop :=
  ∀ id,
    Haystack.Retains Record.TagsAlike (resolve id)
      (resolve' id)

section Paths

variable {resolve resolve' : Resolver}
variable {a b : Record}

/-
  By induction on the hops: a path that leads to a value
  leads there again if its first tag is retained and, unless
  that is all, the records that references lead to.
-/
theorem Path.retains_follow
    {name : TagName}
    {hops : List TagName}
    (hFirst :
      Retains Value.Alike (a.get? name.text)
        (b.get? name.text))
    (hResolve : hops = [] ∨ resolve.Retains resolve') :
    Retains Value.Alike (follow resolve a name hops)
      (follow resolve' b name hops) := by
  induction hops generalizing a b name with
  | nil => exact hFirst
  | cons next hops ih =>
      have hMore : resolve.Retains resolve' :=
        hResolve.resolve_left (List.cons_ne_nil next hops)
      intro v hv
      rw [follow] at hv ⊢
      cases hTag : a.get? name.text with
      | none => simp [Record.ref?, hTag] at hv
      | some u =>
          cases u with
          | ref r =>
              rcases hFirst _ hTag with ⟨w, hw, hAlike⟩
              rcases hAlike.exists_ref with ⟨r', rfl, hId⟩
              have hLink : Record.ref? a name.text = some r := by
                simp [Record.ref?, hTag]
              have hLink' :
                  Record.ref? b name.text = some r' := by
                simp [Record.ref?, hw]
              rw [hLink, Option.bind_some] at hv
              rw [hLink', Option.bind_some, ← hId]
              cases hFound : resolve r.id with
              | none => simp [hFound] at hv
              | some target =>
                  rcases hMore r.id target hFound with
                    ⟨target', hFound', hTarget⟩
                  rw [hFound] at hv
                  rw [hFound']
                  exact
                    ih (retains_of_rel (hTarget next.text))
                      (Or.inr hMore) v hv
          | _ => simp [Record.ref?, hTag] at hv

/-
  A path retains what its first tag and the resolver retain.
-/
theorem Path.retains_find?
    (p : Path)
    (hFirst :
      Retains Value.Alike (a.get? p.first.text)
        (b.get? p.first.text))
    (hResolve : p.hops = [] ∨ resolve.Retains resolve') :
    Retains Value.Alike (p.find? resolve a)
      (p.find? resolve' b) :=
  retains_follow hFirst hResolve

end Paths

------------------------------------------------------------
-- Filters
------------------------------------------------------------

namespace Filter

variable {resolve resolve' : Resolver}
variable {a b : Record}

/- By induction on the filter: only what is found matters. -/
theorem includes_eq_of_find?
    {f : Filter}
    (h : ∀ p ∈ f.paths,
      Option.Rel Value.Alike (p.find? resolve a)
        (p.find? resolve' b)) :
    f.includes resolve a = f.includes resolve' b := by
  induction f with
  | all => rfl
  | has p | missing p =>
      rw [includes, includes]
      match p.find? resolve a, p.find? resolve' b,
        h p (List.mem_singleton_self p) with
      | _, _, .none => rfl
      | _, _, .some _ => rfl
  | cmp p op value =>
      rw [includes, includes]
      match p.find? resolve a, p.find? resolve' b,
        h p (List.mem_singleton_self p) with
      | _, _, .none => rfl
      | _, _, .some hAlike => exact hAlike.holds_eq op value
  | like p pattern =>
      rw [includes, includes]
      match p.find? resolve a, p.find? resolve' b,
        h p (List.mem_singleton_self p) with
      | _, _, .none => rfl
      | some v, some w, .some hAlike =>
          cases v with
          | str s => rw [hAlike.eq_str]
          | _ =>
              cases w with
              | str s =>
                  have hBack := hAlike.symm.eq_str
                  cases hBack
              | _ => rfl
  | and f g ihf ihg | or f g ihf ihg =>
      rw [paths, List.forall_mem_append] at h
      rw [includes, includes, ihf h.1, ihg h.2]
  | not f ih => rw [includes, includes, ih h]

/- Neither `missing` nor `not` occurs in the filter. -/
def IsPositive : Filter → Prop
| .missing _ => False
| .and a b => a.IsPositive ∧ b.IsPositive
| .or a b => a.IsPositive ∧ b.IsPositive
| .not _ => False
| _ => True

instance decidableIsPositive :
    (f : Filter) → Decidable f.IsPositive
| .all => .isTrue trivial
| .has _ => .isTrue trivial
| .missing _ => .isFalse id
| .cmp _ _ _ => .isTrue trivial
| .like _ _ => .isTrue trivial
| .and a b =>
    @instDecidableAnd _ _ (decidableIsPositive a)
      (decidableIsPositive b)
| .or a b =>
    @instDecidableAnd _ _ (decidableIsPositive a)
      (decidableIsPositive b)
| .not _ => .isFalse id

/-
  By induction on the filter: a positive one still includes a
  record if its paths still find what they found.
-/
theorem includes_of_retains
    {f : Filter}
    (hf : f.IsPositive)
    (h : ∀ p ∈ f.paths,
      Retains Value.Alike (p.find? resolve a)
        (p.find? resolve' b))
    (hIncludes : f.includes resolve a = true) :
    f.includes resolve' b = true := by
  induction f with
  | all => rfl
  | has p =>
      rw [includes, Option.isSome_iff_exists] at hIncludes ⊢
      rcases hIncludes with ⟨v, hv⟩
      rcases h p (List.mem_singleton_self p) v hv with
        ⟨w, hw, -⟩
      exact ⟨w, hw⟩
  | missing p => exact hf.elim
  | cmp p op value =>
      rw [includes, Option.any_eq_true] at hIncludes ⊢
      rcases hIncludes with ⟨v, hv, hHolds⟩
      rcases h p (List.mem_singleton_self p) v hv with
        ⟨w, hw, hAlike⟩
      exact ⟨w, hw, by rwa [← hAlike.holds_eq]⟩
  | like p pattern =>
      rw [includes] at hIncludes ⊢
      split at hIncludes
      next s hv =>
        rcases h p (List.mem_singleton_self p) _ hv with
          ⟨w, hw, hAlike⟩
        rw [hw, hAlike.eq_str]
        exact hIncludes
      next => cases hIncludes
  | and f g ihf ihg =>
      rw [paths, List.forall_mem_append] at h
      rw [includes, Bool.and_eq_true] at hIncludes ⊢
      exact
        ⟨ihf hf.1 h.1 hIncludes.1, ihg hf.2 h.2 hIncludes.2⟩
  | or f g ihf ihg =>
      rw [paths, List.forall_mem_append] at h
      rw [includes, Bool.or_eq_true] at hIncludes ⊢
      exact hIncludes.imp (ihf hf.1 h.1) (ihg hf.2 h.2)
  | not f => exact hf.elim

/-
  A filter includes both records or neither if they have
  values that are alike under the first name of each path,
  and either no path leads on or references lead to records
  that are alike.
-/
theorem includes_eq_of_rel
    {f : Filter}
    (hFirst : ∀ p ∈ f.paths,
      Option.Rel Value.Alike (a.get? p.first.text)
        (b.get? p.first.text))
    (hResolve :
      (∀ p ∈ f.paths, p.hops = []) ∨
        ∀ id,
          Option.Rel Record.TagsAlike (resolve id)
            (resolve' id)) :
    f.includes resolve a = f.includes resolve' b := by
  apply includes_eq_of_find?
  intro p hp
  have hHops := hResolve.imp_left (fun hHops => hHops p hp)
  apply rel_of_retains
  · exact
      p.retains_find? (retains_of_rel (hFirst p hp))
        (hHops.imp_right (fun h id => retains_of_rel (h id)))
  · exact
      p.retains_find?
        (retains_of_rel
          (rel_symm Value.Alike.symm (hFirst p hp)))
        (hHops.imp_right
          (fun h id =>
            retains_of_rel
              (rel_symm Record.TagsAlike.symm (h id))))

/- A path of one name has nothing after the first. -/
theorem hops_eq_nil_of_length
    {p : Path}
    (h : p.names.length ≤ 1) :
    p.hops = [] := by
  rw [Path.names, List.length_map, List.length_cons] at h
  exact List.length_eq_zero_iff.mp (by omega)

/-
  A filter that stays in the record has no path that leaves
  it.
-/
theorem hops_eq_nil_of_isMultiHop
    {f : Filter}
    (h : f.isMultiHop = false)
    {p : Path}
    (hp : p ∈ f.paths) :
    p.hops = [] := by
  have hPath := List.any_eq_false.mp h p hp
  rwa [Path.isMultiHop, Bool.not_eq_true, Bool.not_eq_false',
    List.isEmpty_iff] at hPath

/- What a check tells of a text is true of its filter. -/
theorem isMultiHop_of_check
    {text : String}
    {f : Filter}
    {result : CheckResult}
    (hParse : parse text = .ok f)
    (hCheck : check text = .ok result) :
    result.multiHop = f.isMultiHop := by
  rw [check, hParse] at hCheck
  cases hCheck
  rfl

/-
  A filter reads its paths and nothing else. Two records are
  both included or both not if under the first name of each
  path they have values that are alike, or none, and if no
  path has a second name or all references lead to records
  that are alike, or to none. So a filter of which a check
  tells that no path leads on answers as it does where no
  record can be found.
-/
theorem includes_eq_of_firstTags (f : Filter) :
    (∀ (a b : Record) (resolve resolve' : Resolver),
      (∀ p ∈ f.paths,
        Option.Rel Value.Alike (a.get? p.first.text)
          (b.get? p.first.text)) →
      ((∀ p ∈ f.paths, p.names.length ≤ 1) ∨
        ∀ id,
          Option.Rel Record.Alike (resolve id)
            (resolve' id)) →
      f.includes resolve a = f.includes resolve' b) ∧
    ∀ (text : String) (result : CheckResult),
      parse text = .ok f →
      check text = .ok result →
      result.multiHop = false →
      ∀ (resolve : Resolver) (record : Record),
        f.includes resolve record = f.accepts record := by
  constructor
  · intro a b resolve resolve' hFirst hResolve
    exact
      includes_eq_of_rel hFirst
        (hResolve.imp
          (fun h p hp => hops_eq_nil_of_length (h p hp))
          (fun h id => rel_imp Record.Alike.rel_get? (h id)))
  · intro text result hParse hCheck hOne resolve record
    rw [isMultiHop_of_check hParse hCheck] at hOne
    exact
      includes_eq_of_rel (fun _ _ => rel_self .refl _)
        (Or.inl (fun p hp => hops_eq_nil_of_isMultiHop hOne hp))

/- Where a floor is named and nothing is closed. -/
def openFilter : Filter :=
  .and (.has ⟨⟨"floorRef", rfl⟩, []⟩)
    (.missing ⟨⟨"closed", rfl⟩, []⟩)

/- Rooms of one floor, which is labelled in two ways. -/
def oldRoom : Record :=
  ⟨[("area", .str "A"),
    ("floorRef", .ref ⟨"floor", some "Old", rfl⟩)]⟩

def newRoom : Record :=
  ⟨[("floorRef", .ref ⟨"floor", some "New", rfl⟩),
    ("yard", .marker)]⟩

/-
  A filter of tags of the room itself, with two resolvers
  and two rooms that differ elsewhere.
-/
theorem includes_openFilter :
    (∀ p ∈ openFilter.paths,
      Option.Rel Value.Alike (oldRoom.get? p.first.text)
        (newRoom.get? p.first.text)) ∧
      (∀ p ∈ openFilter.paths, p.names.length ≤ 1) ∧
      parse "floorRef and not closed" = .ok openFilter ∧
      check "floorRef and not closed" =
        .ok ⟨"floorRef and not closed", false⟩ ∧
      openFilter.includes .none oldRoom =
        openFilter.includes (fun _ => some oldRoom) newRoom ∧
      openFilter.includes (fun _ => some oldRoom) newRoom =
        openFilter.accepts newRoom := by
  have hFirst :
      ∀ p ∈ openFilter.paths,
        Option.Rel Value.Alike (oldRoom.get? p.first.text)
          (newRoom.get? p.first.text) := by
    intro p hp
    rcases List.mem_pair.mp hp with rfl | rfl
    · exact .some (Or.inr ⟨rfl, rfl⟩)
    · exact .none
  have hNames :
      ∀ p ∈ openFilter.paths, p.names.length ≤ 1 := by
    decide
  have hParse :
      parse "floorRef and not closed" = .ok openFilter := by
    rfl
  have hCheck :
      check "floorRef and not closed" =
        .ok ⟨"floorRef and not closed", false⟩ := by
    rfl
  rcases includes_eq_of_firstTags openFilter with
    ⟨hSame, hAlone⟩
  exact
    ⟨hFirst, hNames, hParse, hCheck,
      hSame _ _ _ _ hFirst (Or.inl hNames),
      hAlone _ _ hParse hCheck rfl _ _⟩

end Filter

end Haystack
