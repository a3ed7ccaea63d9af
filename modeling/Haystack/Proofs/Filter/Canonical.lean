import Haystack.Proofs.Filter.Trees

/-
  This file shows that the text of a filter determines its
  tree, down to literals that are the same.

  Key definitions include:
    * `Filter.SameTree`
    * `Filter.ShowsUnits`
    * `Value.IsLiteral`
    * `Filter.IsPortable`

  Main declarations:
    * `Filter.asRead_sameTree`
    * `Filter.parse_text_of_isPortable`
-/

namespace Haystack

namespace Filter

------------------------------------------------------------
-- Sameness of Trees
------------------------------------------------------------

/-
  The filters agree node by node, in paths, operators and
  patterns, and their literals are the same.
-/
inductive SameTree : Filter → Filter → Prop where
| all : SameTree .all .all
| has (path : Path) : SameTree (.has path) (.has path)
| missing (path : Path) :
    SameTree (.missing path) (.missing path)
| cmp
    (path : Path)
    (op : Comparison)
    {v w : Value}
    (hSame : (v == w) = true) :
    SameTree (.cmp path op v) (.cmp path op w)
| like
    (path : Path)
    (pattern : LikePattern) :
    SameTree (.like path pattern) (.like path pattern)
| and
    {a a' b b' : Filter}
    (ha : SameTree a a')
    (hb : SameTree b b') :
    SameTree (.and a b) (.and a' b')
| or
    {a a' b b' : Filter}
    (ha : SameTree a a')
    (hb : SameTree b b') :
    SameTree (.or a b) (.or a' b')
| not
    {a a' : Filter}
    (ha : SameTree a a') :
    SameTree (.not a) (.not a')

/- The text of each literal shows its unit. -/
def ShowsUnits : Filter → Prop
| .cmp _ _ value => value.ShowsUnit
| .and a b => a.ShowsUnits ∧ b.ShowsUnits
| .or a b => a.ShowsUnits ∧ b.ShowsUnits
| .not a => a.ShowsUnits
| _ => True

/- What is read is the same if the texts show all units. -/
theorem asRead_sameTree
    {zones : ZoneTable}
    {f : Filter}
    (hf : f.IsReadable zones)
    (hUnits : f.ShowsUnits) :
    (f.asRead zones).SameTree f := by
  induction f with
  | all => exact .all
  | has path => exact .has path
  | missing path => exact .missing path
  | cmp path op v =>
      exact
        .cmp path op
          ((Value.asRead_same_iff zones hf.2).mpr hUnits)
  | like path pattern => exact .like path pattern
  | and a b iha ihb =>
      exact .and (iha hf.1 hUnits.1) (ihb hf.2 hUnits.2)
  | or a b iha ihb =>
      exact .or (iha hf.1 hUnits.1) (ihb hf.2 hUnits.2)
  | not a ih => exact .not (ih hf hUnits)

/- What a literal is read as has no values inside. -/
theorem isSimple_asRead
    {zones : ZoneTable}
    {v : Value}
    (hv : v.IsReadable zones .filter) :
    (v.asRead zones .filter).IsSimple := by
  cases v with
  | number n =>
      rw [Value.asRead_number]
      split_ifs <;> exact ⟨nofun, nofun⟩
  | list items => cases hv
  | dict d => cases hv
  | _ => exact ⟨nofun, nofun⟩

/- What is the same as what is read is the same as before. -/
theorem sameTree_of_asRead
    {zones : ZoneTable}
    {f g : Filter}
    (hf : f.IsReadable zones)
    (hUnits : f.ShowsUnits)
    (hSame : (f.asRead zones).SameTree g) :
    f.SameTree g := by
  induction f generalizing g with
  | all =>
      cases hSame
      exact .all
  | has path =>
      cases hSame
      exact .has path
  | missing path =>
      cases hSame
      exact .missing path
  | cmp path op v =>
      cases hSame with
      | cmp path op hValue =>
          exact
            .cmp path op
              (Value.same_of_same (isSimple_asRead hf.2)
                ((Value.asRead_same_iff zones hf.2).mpr
                  hUnits)
                hValue)
  | like path pattern =>
      cases hSame
      exact .like path pattern
  | and a b iha ihb =>
      cases hSame with
      | and ha hb =>
          exact
            .and (iha hf.1 hUnits.1 ha) (ihb hf.2 hUnits.2 hb)
  | or a b iha ihb =>
      cases hSame with
      | or ha hb =>
          exact
            .or (iha hf.1 hUnits.1 ha) (ihb hf.2 hUnits.2 hb)
  | not a ih =>
      cases hSame with
      | not ha => exact .not (ih hf hUnits ha)

end Filter

------------------------------------------------------------
-- Filters that Keep Their Meaning
------------------------------------------------------------

/- Portable values of the kinds that filters compare with. -/
def Value.IsLiteral (v : Value) : Prop :=
  v.IsPortable ∧
    v.kind ∉ [.marker, .remove, .na, .bin]

instance (v : Value) : Decidable v.IsLiteral := by
  unfold Value.IsLiteral
  infer_instance

/- Literals that a text can carry are read back from it. -/
theorem Value.IsLiteral.isReadable
    {v : Value}
    (hv : v.IsLiteral) :
    v.IsReadable .builtin .filter ∧ v.HasLegibleText ∧
      v.ShowsUnit := by
  rcases hv with ⟨hPortable, hKind⟩
  have hZinc := hPortable.isReadable
  refine ⟨?_, hZinc.2⟩
  cases v with
  | marker => exact absurd (List.mem_cons_self ..) hKind
  | remove => simp [kind] at hKind
  | na => simp [kind] at hKind
  | bin mime => simp [kind] at hKind
  | coord place => cases hPortable
  | _ => exact hZinc.1

namespace Filter

/-
  Filters with such literals, on paths that do not read as
  the keyword of missing tags.
-/
def IsPortable : Filter → Prop
| .all => True
| .has path => IsPlainPath path
| .missing _ => True
| .cmp path _ value => IsPlainPath path ∧ value.IsLiteral
| .like path _ => IsPlainPath path
| .and a b => a.IsPortable ∧ b.IsPortable
| .or a b => a.IsPortable ∧ b.IsPortable
| .not a => a.IsPortable

/- Such filters are readable, and their text says it all. -/
theorem IsPortable.isReadable
    {f : Filter}
    (hf : f.IsPortable) :
    f.IsReadable .builtin ∧ f.HasLegibleText ∧
      f.ShowsUnits := by
  induction f with
  | all => exact ⟨trivial, trivial, trivial⟩
  | has path => exact ⟨hf, trivial, trivial⟩
  | missing path => exact ⟨trivial, trivial, trivial⟩
  | cmp path op v =>
      have hValue := hf.2.isReadable
      exact ⟨⟨hf.1, hValue.1⟩, hValue.2.1, hValue.2.2⟩
  | like path pattern => exact ⟨hf, trivial, trivial⟩
  | and a b iha ihb =>
      have ha := iha hf.1
      have hb := ihb hf.2
      exact
        ⟨⟨ha.1, hb.1⟩, ⟨ha.2.1, hb.2.1⟩,
          ⟨ha.2.2, hb.2.2⟩⟩
  | or a b iha ihb =>
      have ha := iha hf.1
      have hb := ihb hf.2
      exact
        ⟨⟨ha.1, hb.1⟩, ⟨ha.2.1, hb.2.1⟩,
          ⟨ha.2.2, hb.2.2⟩⟩
  | not a ih => exact ih hf

/-
  A portable filter is read back from its text node by node,
  so that no other tree has the same text.
-/
theorem parse_text_of_isPortable
    {f : Filter}
    (hf : f.IsPortable) :
    (∃ read,
      parse (String.ofList f.text) = .ok read ∧
        read.SameTree f) ∧
      ∀ g : Filter,
        g.IsPortable → g.text = f.text → g.SameTree f := by
  rcases hf.isReadable with ⟨hRead, hText, hUnits⟩
  have hParse := parse_text hRead hText
  have hSame := asRead_sameTree hRead hUnits
  refine ⟨⟨_, hParse, hSame⟩, ?_⟩
  intro g hg hEq
  rcases hg.isReadable with ⟨hRead', hText', hUnits'⟩
  have hParse' := parse_text hRead' hText'
  rw [hEq, hParse, Except.ok.injEq] at hParse'
  rw [hParse'] at hSame
  exact sameTree_of_asRead hRead' hUnits' hSame

/- Joined parts on either side, and one that is turned. -/
def siteFilter : Filter :=
  .or
    (.and (.has ⟨⟨"site", rfl⟩, []⟩)
      (.or
        (.cmp ⟨⟨"siteRef", rfl⟩, [⟨"area", rfl⟩]⟩ .lt
          (.number ⟨.ofInt (-12), some ⟨"km", rfl⟩⟩))
        (.missing ⟨⟨"ahu", rfl⟩, []⟩)))
    (.not
      (.like ⟨⟨"dis", rfl⟩, []⟩
        ⟨"Ro%", true, .start, ['R', 'o'], rfl⟩))

/-
  A filter with nested parts is read back from its text, node
  by node.
-/
theorem parse_text_siteFilter :
    siteFilter.IsPortable ∧
      ∃ read,
        parse (String.ofList siteFilter.text) = .ok read ∧
          read.SameTree siteFilter := by
  have hPortable : siteFilter.IsPortable := by
    simp only [siteFilter, IsPortable]
    decide +kernel
  exact
    ⟨hPortable, (parse_text_of_isPortable hPortable).1⟩

end Filter

end Haystack
