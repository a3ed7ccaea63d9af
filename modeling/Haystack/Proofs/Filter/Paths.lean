import Haystack.Proofs.Filter.Given
import Haystack.Proofs.Filter.Trees

/-
  This file shows that the two readers of paths agree: the
  one that splits a text at its arrows, and the reader of
  filters, for which a path on its own asks for the tag.

  Key definitions include:
    * `Filter.marks`
    * `Filter.Shows`
    * `Filter.ShowsPaths`

  Main declarations:
    * `Path.splitArrows_text`
    * `Path.ofText_eq_ok_iff`
    * `Filter.showsPaths_atomWithin`
    * `Filter.filter_marks_of_parse`
    * `Filter.parse_pathText`
    * `Filter.parse_agrees_with_ofText`
-/

namespace Haystack

open Scan

------------------------------------------------------------
-- Splitting at Arrows
------------------------------------------------------------

namespace Path

/- The segments with arrows between them are the text. -/
theorem append_splitArrows (cs : List Char) :
    (splitArrows cs).1 ++
        (splitArrows cs).2.flatMap (['-', '>'] ++ ·) =
      cs := by
  fun_induction splitArrows cs with
  | case1 => rfl
  | case2 cs rest ih =>
      rw [List.nil_append, List.flatMap_cons,
        List.append_assoc, ih]
      rfl
  | case3 c cs _ rest ih => exact congrArg (c :: ·) ih

/- A segment goes on up to the next dash. -/
theorem splitArrows_append
    {segment : List Char}
    (hSegment : '-' ∉ segment)
    (cs : List Char) :
    splitArrows (segment ++ cs) =
      (segment ++ (splitArrows cs).1, (splitArrows cs).2) := by
  induction segment with
  | nil => rfl
  | cons c segment ih =>
      rw [List.mem_cons, not_or] at hSegment
      have hRest := ih hSegment.2
      rw [List.cons_append, splitArrows, hRest]
      · rfl
      · rintro rest rfl
        exact absurd rfl hSegment.1

/- No name has the dash of an arrow. -/
theorem dash_not_mem_name (name : TagName) :
    '-' ∉ name.text.toList :=
  not_mem_of_all rfl (all_isTagChar_of_isTagName name.valid)

/- The text of a path is split into its names. -/
theorem splitArrows_text (p : Path) :
    splitArrows p.text =
      (p.first.text.toList,
        p.hops.map (fun name => name.text.toList)) := by
  have hHops : ∀ hops : List TagName,
      splitArrows
          (hops.flatMap fun name =>
            '-' :: '>' :: name.text.toList) =
        ([], hops.map fun name => name.text.toList) := by
    intro hops
    induction hops with
    | nil => rfl
    | cons name hops ih =>
        rw [List.flatMap_cons, List.cons_append,
          List.cons_append, splitArrows,
          splitArrows_append (dash_not_mem_name name), ih,
          List.append_nil]
        rfl
  rw [text_eq, splitArrows_append (dash_not_mem_name p.first),
    hHops, List.append_nil]

/- A text is split into the path of which it is the text. -/
theorem ofText_eq_ok_iff
    {s : String}
    {p : Path} :
    ofText s = .ok p ↔ s.toList = p.text := by
  unfold ofText
  extract_lets name segments
  have hName : ∀ cs n,
      name cs = .ok n ↔ cs = n.text.toList := by
    intro cs n
    rw [← TagName.ofText?_eq_some_iff]
    dsimp only [name]
    cases TagName.ofText? cs <;> simp
  have hHops : ∀ {hops : List TagName},
      segments.2.mapM name = .ok hops ↔
        segments.2 = hops.map fun n => n.text.toList :=
    except_mapM_eq_ok_iff hName
  constructor
  · intro h
    rcases except_bind_eq_ok.mp h with ⟨first, hFirst, h⟩
    rcases except_bind_eq_ok.mp h with ⟨hops, hMore, h⟩
    cases h
    rw [← append_splitArrows s.toList]
    change segments.1 ++ segments.2.flatMap _ = _
    rw [(hName _ _).mp hFirst, hHops.mp hMore, text_eq,
      List.flatMap_map]
    rfl
  · intro h
    have hSegments : segments = _ :=
      (congrArg splitArrows h).trans (splitArrows_text p)
    refine
      except_bind_eq_ok.mpr
        ⟨p.first, (hName _ _).mpr ?_,
          except_bind_eq_ok.mpr
            ⟨p.hops, hHops.mpr ?_, rfl⟩⟩
    · rw [hSegments]
    · rw [hSegments]

end Path

namespace Filter

variable {c d e : Cursor}

------------------------------------------------------------
-- Spaces and Brackets
------------------------------------------------------------

/- What may stand around a filter. -/
def marks : List Char :=
  [' ', '\t', '(', ')']

/- Up to the next place this is shown, apart from marks. -/
def Shows
    (cs : List Char)
    (c d : Cursor) : Prop :=
  ∃ taken,
    c.rest = taken ++ d.rest ∧ taken.filter (· ∉ marks) = cs

variable {cs : List Char}

/- What two ways show in a row, the whole way shows. -/
theorem Shows.append
    {ds : List Char}
    (hFirst : Shows cs c d)
    (hSecond : Shows ds d e) :
    Shows (cs ++ ds) c e := by
  rcases hFirst with ⟨first, hRest, rfl⟩
  rcases hSecond with ⟨second, hRest', rfl⟩
  refine ⟨first ++ second, ?_, List.filter_append ..⟩
  rw [hRest, hRest', List.append_assoc]

/- Marks show nothing. -/
theorem shows_nil
    (hMarks : c.Passes (· ∈ marks) d) :
    Shows [] c d := by
  rcases hMarks with ⟨taken, hRest, hTaken⟩
  refine ⟨taken, hRest, List.filter_eq_nil_iff.mpr ?_⟩
  simpa using hTaken

/- Marks before what is shown do not matter. -/
theorem Shows.behind_marks
    (hMarks : c.Passes (· ∈ marks) d)
    (hShows : Shows cs d e) :
    Shows cs c e :=
  (shows_nil hMarks).append hShows

/- Neither do marks behind it. -/
theorem Shows.before_marks
    (hShows : Shows cs c d)
    (hMarks : d.Passes (· ∈ marks) e) :
    Shows cs c e := by
  have hBoth := hShows.append (shows_nil hMarks)
  rwa [List.append_nil] at hBoth

theorem passes_marks_of_skipSpace
    {u : Unit}
    (h : skipSpace c = .ok u d) :
    c.Passes (· ∈ marks) d :=
  (passes_skipSpace h).mono fun x hx => by
    simp only [isSpace, Bool.or_eq_true, decide_eq_true_eq]
      at hx
    rcases hx with rfl | rfl <;> rfl

theorem passes_marks_advance
    {x : Char}
    (hHead : c.current? = some x)
    (hx : x ∈ marks) :
    c.Passes (· ∈ marks) c.advance := by
  apply Cursor.passes_advance
  rw [hHead]
  exact decide_eq_true hx

/- The text of a path has no marks. -/
theorem shows_of_path
    {p : Path}
    (h : Path.scan c = .ok p d) :
    Shows p.text c d := by
  refine ⟨p.text, Path.scan_eq_ok h, ?_⟩
  rw [List.filter_eq_self, ← List.all_eq_true]
  exact all_not_mem_of rfl p.all_isPathChar_text

------------------------------------------------------------
-- Filters that Are Just a Path
------------------------------------------------------------

/- Where just a path is given, it is what is shown. -/
def ShowsPaths (part : Scan Filter) : Prop :=
  ∀ p c d, part c = .ok (.has p) d → Shows p.text c d

/- A condition that is just a path shows that path. -/
theorem showsPaths_predicate (zones : ZoneTable) :
    ShowsPaths (predicate zones) := by
  intro p c d h
  rcases predicate_eq_ok h with
    ⟨path, e, e', hPath, hSpace, hFound⟩
  cases hFound with
  | nothing _ =>
      exact
        (shows_of_path hPath).before_marks
          (passes_marks_of_skipSpace hSpace)

/- Two filters that are joined are not just a path. -/
theorem showsPaths_chain
    {part : Scan Filter}
    (hPart : ShowsPaths part)
    (word : Keyword) :
    ShowsPaths (chain word part) := by
  intro p c d h
  refine
    chain_invariant
      (fun f e => ∀ p, f = .has p → Shows p.text c e)
      ?_ ?_ ?_ h p rfl
  · rintro f e hFirst p rfl
    exact hPart p c e hFirst
  · intro f g c₁ c₂ c₃ _ _ _ p hJoin
    cases word <;> cases hJoin
  · intro f c₁ c₂ hShows hJoined p hf
    exact
      (hShows p hf).before_marks
        (passes_marks_of_skipSpace
          ((joined_eq_ok hJoined).2 rfl))

/-
  Joined parts are never just a path, so one part shows it.
-/
theorem showsPaths_anyOf
    {atom : Scan Filter}
    (hAtom : ShowsPaths atom) :
    ShowsPaths (anyOf atom) :=
  showsPaths_chain (showsPaths_chain hAtom .and) .or

/- Brackets around a path are marks. -/
theorem showsPaths_atomWithin
    (zones : ZoneTable)
    (bound : List Char) :
    ShowsPaths (atomWithin zones bound) := by
  induction bound with
  | nil => exact showsPaths_predicate zones
  | cons x bound ih =>
      intro p c d h
      rcases atomWithin_eq_ok h with ⟨e, hSpace, hFound⟩
      refine
        .behind_marks (passes_marks_of_skipSpace hSpace) ?_
      cases hFound with
      | bracket hOpen hBefore hInner hAfter hClose =>
          have hFirst :=
            (passes_marks_advance hOpen (by decide)).trans
              (passes_marks_of_skipSpace hBefore)
          have hLast :=
            (passes_marks_of_skipSpace hAfter).trans
              (passes_marks_advance hClose (by decide))
          exact
            .behind_marks hFirst
              ((showsPaths_anyOf ih p _ _ hInner).before_marks
                hLast)
      | condition hFound =>
          exact showsPaths_predicate zones p e d hFound

/- A text that is read as just a path shows its text. -/
theorem filter_marks_of_parse
    {s : String}
    {p : Path}
    (h : parse s = .ok (.has p)) :
    s.toList.filter (· ∉ marks) = p.text := by
  rcases parse_eq_ok h with
    ⟨c, d, e, hBefore, hAny, hAfter, hEnd⟩
  have hInner : Shows p.text c d :=
    showsPaths_anyOf (showsPaths_atomWithin .builtin c.rest) p
      c d hAny
  have hAll :=
    (hInner.behind_marks
      (passes_marks_of_skipSpace hBefore)).before_marks
      (passes_marks_of_skipSpace hAfter)
  rcases hAll with ⟨taken, hRest, hTaken⟩
  rw [hEnd, List.append_nil] at hRest
  rw [← hTaken, ← hRest]
  rfl

/- A path is read from its text, unless it is the keyword. -/
theorem parse_pathText
    {p : Path}
    (hText : p.text ≠ "not".toList) :
    parse (String.ofList p.text) = .ok (.has p) := by
  have hPath : IsPlainPath p := by
    intro hNames
    apply hText
    unfold Path.text
    rw [hNames]
    rfl
  exact parse_text (f := .has p) hPath trivial

/-
  A text that is split into a path is the text of it, and is
  read as the filter that asks for it, unless it is the
  keyword of missing tags. Without spaces and brackets no
  other text is read as that filter.
-/
theorem parse_agrees_with_ofText :
    (∀ s p,
      Path.ofText s = .ok p →
        String.ofList p.text = s ∧
          (s ≠ "not" → parse s = .ok (.has p))) ∧
      ∀ s p,
        (∀ c ∈ s.toList, c ∉ [' ', '\t', '(', ')']) →
          parse s = .ok (.has p) →
            Path.ofText s = .ok p := by
  constructor
  · intro s p h
    have hText := Path.ofText_eq_ok_iff.mp h
    have hSame : String.ofList p.text = s := by
      rw [← hText, String.ofList_toList]
    refine ⟨hSame, fun hNot => ?_⟩
    rw [← hSame]
    refine parse_pathText ?_
    rw [← hText, ne_eq, String.toList_inj]
    exact hNot
  · intro s p hNone h
    have hShown := filter_marks_of_parse h
    rw [List.filter_eq_self.mpr] at hShown
    · exact Path.ofText_eq_ok_iff.mpr hShown
    · exact fun c hc => decide_eq_true (hNone c hc)

/- Keywords are names as well. -/
theorem parse_agrees_with_ofText_keywords :
    ∃ p,
      Path.ofText "not->and" = .ok p ∧
        parse "not->and" = .ok (.has p) := by
  have hPath :
      Path.ofText "not->and" =
        .ok ⟨⟨"not", rfl⟩, [⟨"and", rfl⟩]⟩ := by
    cbv
  have hAgree := parse_agrees_with_ofText.1 _ _ hPath
  exact ⟨_, hPath, hAgree.2 (by decide)⟩

end Filter

end Haystack
