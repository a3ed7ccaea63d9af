import Haystack.Proofs.Tag.Names
import Haystack.Proofs.Tag.Records
import Haystack.Proofs.Zinc.Values
import Haystack.Zinc.GridReading
import Haystack.Zinc.GridText

/-
  This file shows that tags are read back: a name, and a value
  unless it is a marker, with a space between two tags.

  Key definitions include:
    * `Value.IsLegible`
    * `Record.IsWritten`
    * `Record.IsReadable`
    * `Record.HasLegibleText`
    * `Record.asRead`
    * `Zinc.spaced`

  Main declarations:
    * `Zinc.reads_tag`
    * `Zinc.recordOf_entries`
    * `Zinc.reads_tags`
-/

namespace Haystack

------------------------------------------------------------
-- Records that Readers Give
------------------------------------------------------------

/- The text of the value is read as a value. -/
def Value.IsLegible
    (zones : ZoneTable)
    (v : Value) : Prop :=
  v.IsReadable zones .zinc ∧ v.HasLegibleText

namespace Record

/- The values, in order. -/
def values (r : Record) : List Value :=
  r.entries.map Prod.snd

/-
  The record is written as tags: each key is the name of one
  tag, and no value has values inside.
-/
def IsWritten (r : Record) : Prop :=
  r.HasUniqueKeys ∧
    ∀ e ∈ r.entries,
      isTagName e.1.toList = true ∧ e.2.IsSimple

/- A reader of grids can give this record. -/
def IsReadable
    (zones : ZoneTable)
    (r : Record) : Prop :=
  r.HasUniqueKeys ∧
    ∀ e ∈ r.entries,
      isTagName e.1.toList = true ∧ e.2.IsReadable zones .zinc

/- The text of each value is read as a value. -/
def HasLegibleText (r : Record) : Prop :=
  ∀ v ∈ r.values, v.HasLegibleText

/-
  A record that can be written is readable if its values are
  legible.
-/
theorem IsWritten.isReadable
    {zones : ZoneTable}
    {r : Record}
    (hr : r.IsWritten)
    (hValues : ∀ v ∈ r.values, v.IsLegible zones) :
    r.IsReadable zones ∧ r.HasLegibleText := by
  refine ⟨⟨hr.1, fun e he => ⟨(hr.2 e he).1, ?_⟩⟩, ?_⟩
  · exact (hValues _ (List.mem_map_of_mem he)).1
  · exact fun v hv => (hValues v hv).2

/- What the text of each value is read as. -/
def asRead
    (zones : ZoneTable)
    (r : Record) : Record :=
  ⟨r.entries.map (fun e => (e.1, e.2.asRead zones .zinc))⟩

/- Readable records can be written. -/
theorem IsReadable.isWritten
    {zones : ZoneTable}
    {r : Record}
    (hr : r.IsReadable zones) :
    r.IsWritten :=
  ⟨hr.1, fun e he => ⟨(hr.2 e he).1, (hr.2 e he).2.isSimple⟩⟩

theorem HasLegibleText.of_mem
    {r : Record}
    (hr : r.HasLegibleText)
    {e : String × Value}
    (he : e ∈ r.entries) :
    e.2.HasLegibleText :=
  hr e.2 (List.mem_map_of_mem he)

/- An entry is found again among those that were read. -/
theorem get?_asRead
    (zones : ZoneTable)
    (r : Record)
    (key : String) :
    (r.asRead zones).get? key =
      (r.get? key).map (fun v => v.asRead zones .zinc) := by
  rcases r with ⟨entries⟩
  unfold asRead Dict.get?
  dsimp only
  induction entries with
  | nil => rfl
  | cons e entries ih =>
      rw [List.map_cons, List.lookup_cons, List.lookup_cons,
        ih]
      cases key == e.1 <;> rfl

/- Reading back changes no key. -/
theorem keys_asRead
    (zones : ZoneTable)
    (r : Record) :
    (r.asRead zones).keys = r.keys := by
  simp [asRead, Dict.keys, Function.comp_def]

end Record

namespace Zinc

open Scan

------------------------------------------------------------
-- Names
------------------------------------------------------------

/- What closes a value is not a character of a name. -/
theorem isTagChar_of_isCloser
    {c : Char}
    (hc : isCloser c = true) :
    isTagChar c = false := by
  rcases eq_of_isCloser hc with
    rfl | rfl | rfl | rfl | rfl <;> rfl

/- No name goes on behind a value. -/
theorem EndsValue.notTagChar
    {rest : List Char}
    (hRest : EndsValue rest) :
    rest.head?.all (fun c => !isTagChar c) = true := by
  apply hRest.head_all _
  intro c hc
  rw [isTagChar_of_isCloser hc]
  rfl

/- The first character of a name. -/
theorem exists_cons_of_isTagName
    {cs : List Char}
    (h : isTagName cs = true) :
    ∃ c ds, cs = c :: ds ∧ isTagStart c = true := by
  cases cs with
  | nil => cases h
  | cons c ds =>
      rw [isTagName, Bool.and_eq_true] at h
      exact ⟨c, ds, rfl, h.1⟩

/-
  A name is told from the marks between tags by its first
  character.
-/
theorem not_of_isTagStart
    {c : Char}
    (hc : isTagStart c = true) :
    isSpace c = false ∧ c ≠ ':' ∧ c ≠ '"' ∧ c ≠ '\n' := by
  refine ⟨?_, ?_, ?_, ?_⟩
  · by_contra hSpace
    simp only [Bool.not_eq_false, isSpace, Bool.or_eq_true,
      decide_eq_true_eq] at hSpace
    rcases hSpace with rfl | rfl <;> cases hc
  all_goals
    rintro rfl
    cases hc

------------------------------------------------------------
-- Tags
------------------------------------------------------------

/- A marker shows its name alone. -/
theorem entryText_eq
    (key : String)
    (v : Value) :
    v = .marker ∧ Value.entryText key v = key.toList ∨
      Value.entryText key v =
        key.toList ++ ':' :: v.textIn .zinc := by
  cases v with
  | marker => exact Or.inl ⟨rfl, by rw [Value.entryText]⟩
  | _ =>
      right
      rw [Value.entryText, Value.textIn] <;> simp

/- An entry starts as its key does. -/
theorem exists_cons_entryText
    {e : String × Value}
    (hName : isTagName e.1.toList = true) :
    ∃ c cs,
      Value.entryText e.1 e.2 = c :: cs ∧
        isTagStart c = true := by
  rcases exists_cons_of_isTagName hName with
    ⟨c, cs, hKey, hc⟩
  rcases entryText_eq e.1 e.2 with ⟨-, hText⟩ | hText
  · exact ⟨c, cs, by rw [hText, hKey], hc⟩
  · exact ⟨c, _, by rw [hText, hKey]; rfl, hc⟩

/- No value starts with a space. -/
theorem startsValue_notSpace
    {cs : List Char}
    (h : startsValue cs = true)
    (more : List Char) :
    (cs ++ more).head?.all (fun c => !isSpace c) = true := by
  cases cs with
  | nil => cases h
  | cons c cs =>
      have hc := isCloser_of_startsValue h
      simp only [isCloser, Bool.or_eq_false_iff] at hc
      simp [hc.1.1.1]

/- A tag is read with the spaces after it. -/
theorem reads_tag
    {zones : ZoneTable}
    {e : String × Value}
    (hName : isTagName e.1.toList = true)
    (hv : e.2.IsLegible zones)
    {blank rest : List Char}
    (hBlank : blank.all isSpace = true)
    (hEnds : EndsValue (blank ++ rest))
    (hSpace :
      rest.head?.all (fun c => !isSpace c) = true)
    (hColon : rest.head? ≠ some ':') :
    Reads (tag? zones) (Value.entryText e.1 e.2 ++ blank)
      (some (e.1, some (e.2.asRead zones .zinc))) rest := by
  rcases e with ⟨key, v⟩
  dsimp only at *
  rcases exists_cons_of_isTagName hName with
    ⟨c, cs, hKey, hc⟩
  have hStart (more : List Char) :
      (key.toList ++ more).head?.any isTagStart = true := by
    simp [hKey, hc]
  unfold tag?
  rw [reads_current_bind]
  rcases entryText_eq key v with ⟨rfl, hEntry⟩ | hEntry
  · rw [hEntry, List.append_assoc, if_pos (hStart _)]
    refine
      Reads.bind (reads_tagName hName hEnds.notTagChar) ?_
    apply (reads_skipSpace hBlank hSpace).bind_last
    rw [reads_current_bind, List.nil_append, if_neg hColon]
    exact reads_pure _ rest
  · have hHead := startsValue_textIn .zinc hv.1.isSimple
    rw [hEntry, List.append_assoc key.toList,
      List.cons_append, List.append_assoc,
      if_pos (hStart _)]
    apply Reads.bind (reads_tagName hName rfl)
    apply Reads.bind_of_nil (reads_skipSpace_nil rfl)
    rw [reads_current_bind, if_pos (by rfl)]
    refine Reads.advance_bind ?_ ':'
    refine
      Reads.bind_of_nil (reads_skipSpace_nil ?_) ?_
    · rw [List.append_assoc]
      exact startsValue_notSpace hHead _
    have hValue :
        Reads
          (value zones .zinc >>= fun v =>
            skipSpace >>= fun _ => pure (some (key, v)))
          (v.textIn .zinc ++ (blank ++ []))
          (some (key, some (v.asRead zones .zinc))) rest :=
      (readsLoosely_value hv.1 hv.2 hEnds).bind_skipSpace
        hBlank hSpace (reads_pure _ rest)
    rwa [List.append_nil] at hValue

------------------------------------------------------------
-- Tags on a Line
------------------------------------------------------------

/- Entries with a space after each but the last. -/
def spaced :
    List (String × Value) →
      List ((String × Value) × List Char)
| [] => []
| [e] => [(e, [])]
| e :: entries => (e, [' ']) :: spaced entries

/- The text of an entry and of the space after it. -/
def spacedText
    (e : (String × Value) × List Char) : List Char :=
  Value.entryText e.1.1 e.1.2 ++ e.2

/-
  Each entry is followed by a space and the next one, or is
  the last and followed by neither.
-/
theorem spaced_split
    {entries : List (String × Value)}
    {before after : List ((String × Value) × List Char)}
    {e : String × Value}
    {blank : List Char}
    (h : spaced entries = before ++ (e, blank) :: after) :
    e ∈ entries ∧
      (blank = [] ∧ after = [] ∨
        blank = [' '] ∧ ∃ next b more,
          after = (next, b) :: more ∧ next ∈ entries) := by
  fun_induction spaced entries generalizing before with
  | case1 => simp at h
  | case2 e' =>
      cases before with
      | nil => simp_all
      | cons x before => simp at h
  | case3 e' entries hMore ih =>
      cases before with
      | nil =>
          rw [List.nil_append, List.cons.injEq,
            Prod.mk.injEq] at h
          rcases h with ⟨⟨rfl, rfl⟩, rfl⟩
          refine ⟨List.mem_cons_self .., Or.inr ⟨rfl, ?_⟩⟩
          cases entries with
          | nil => exact (hMore rfl).elim
          | cons next entries =>
              cases entries with
              | nil => exact ⟨next, _, _, rfl, by simp⟩
              | cons _ _ => exact ⟨next, _, _, rfl, by simp⟩
      | cons x before =>
          rw [List.cons_append, List.cons.injEq] at h
          rcases ih h.2 with ⟨hMem, hNext⟩
          refine ⟨List.mem_cons_of_mem _ hMem, ?_⟩
          rcases hNext with
            hLast | ⟨hBlank, next, b, more, hAfter, hNext⟩
          · exact Or.inl hLast
          · exact
              Or.inr
                ⟨hBlank, next, b, more, hAfter,
                  List.mem_cons_of_mem _ hNext⟩

theorem map_fst_spaced (entries : List (String × Value)) :
    (spaced entries).map Prod.fst = entries := by
  fun_induction spaced entries with
  | case1 => rfl
  | case2 => rfl
  | case3 e entries _ ih => rw [List.map_cons, ih]

/- What is said about a grid, from the first space on. -/
theorem metadataText_eq
    {entries : List (String × Value)}
    (h : entries ≠ []) :
    metadataText ⟨entries⟩ =
      ' ' :: (spaced entries).flatMap spacedText := by
  unfold metadataText
  dsimp only
  fun_induction spaced entries with
  | case1 => exact absurd rfl h
  | case2 e => simp [spacedText]
  | case3 e entries hMore ih =>
      rw [List.flatMap_cons, List.flatMap_cons, spacedText,
        ih hMore]
      simp

/- An entry is read with the space after it. -/
theorem reads_spacedText
    {zones : ZoneTable}
    {r : Record}
    (hr : r.IsWritten)
    {before after : List ((String × Value) × List Char)}
    {e : (String × Value) × List Char}
    (hSplit : spaced r.entries = before ++ e :: after)
    (hLegible : e.1.2.IsLegible zones)
    {rest : List Char}
    (hRest : EndsLine rest) :
    Reads (tag? zones) (spacedText e)
      (some (e.1.1, some (e.1.2.asRead zones .zinc)))
      (after.flatMap spacedText ++ rest) := by
  rcases e with ⟨e, blank⟩
  rcases spaced_split hSplit with ⟨hMem, hNext⟩
  have hEntry := hr.2 e hMem
  rcases hNext with
    ⟨rfl, rfl⟩ | ⟨rfl, next, b, more, rfl, hNext⟩
  · refine
      reads_tag hEntry.1 hLegible rfl hRest.endsValue ?_ ?_
    all_goals
      rcases hRest.eq_nil_or_cons with rfl | ⟨more, rfl⟩ <;>
        simp [isSpace]
  · rcases exists_cons_entryText (hr.2 next hNext).1 with
      ⟨c, cs, hText, hc⟩
    rcases not_of_isTagStart hc with
      ⟨hSpace, hColon, hQuote, -⟩
    have hHead :
        ((next, b) :: more).flatMap spacedText ++ rest =
          c :: (cs ++ (b ++ (more.flatMap spacedText ++
            rest))) := by
      simp [spacedText, hText]
    rw [hHead]
    exact
      reads_tag hEntry.1 hLegible rfl
        (endsValue_space hQuote hSpace _) (by simp [hSpace])
        (by simpa using hColon)

/- Each entry with its space shows something. -/
theorem spacedText_ne_nil
    {r : Record}
    (hr : r.IsWritten)
    {e : (String × Value) × List Char}
    (he : e ∈ spaced r.entries) :
    spacedText e ≠ [] := by
  rcases List.append_of_mem he with ⟨before, after, hSplit⟩
  rcases exists_cons_entryText
      (hr.2 e.1 (spaced_split hSplit).1).1 with
    ⟨c, cs, hText, -⟩
  simp [spacedText, hText]

/- Tags under different names make a record of them all. -/
theorem recordOf_entries
    {zones : ZoneTable}
    {r : Record}
    (hr : r.HasUniqueKeys) :
    recordOf
        (r.entries.map (fun e =>
          (e.1, some (e.2.asRead zones .zinc)))) =
      r.asRead zones := by
  have hKeys :
      ((r.asRead zones).entries.map Prod.fst).Nodup := by
    rwa [Dict.HasUniqueKeys, ← Record.keys_asRead zones] at hr
  rw [recordOf, List.filterMap_map]
  refine Eq.trans ?_ (Dict.ofEntries_of_nodup hKeys)
  congr 1
  exact congrFun List.filterMap_eq_map r.entries

/-
  The tags of a record are read up to the line end, and make
  the record of the values that their texts are read as.
-/
theorem reads_tags
    {zones : ZoneTable}
    {r : Record}
    (hr : r.IsReadable zones)
    (hText : r.HasLegibleText)
    {rest : List Char}
    (hRest : EndsLine rest) :
    Reads (tags zones)
      ((spaced r.entries).flatMap spacedText)
      (r.asRead zones) rest := by
  have hCollect :
      Reads (collect (tag? zones))
        ((spaced r.entries).flatMap spacedText ++ [])
        ((spaced r.entries).map (fun e =>
          (e.1.1, some (e.1.2.asRead zones .zinc))))
        rest := by
    apply reads_collect
    · intro before e after hSplit
      have hMem := (spaced_split hSplit).1
      exact
        reads_spacedText hr.isWritten hSplit
          ⟨(hr.2 _ hMem).2, hText.of_mem hMem⟩ hRest
    · exact fun e => spacedText_ne_nil hr.isWritten
    · unfold tag?
      rcases hRest.eq_nil_or_cons with rfl | ⟨more, rfl⟩ <;>
        exact reads_pure none _
  have hMap :
      (spaced r.entries).map (fun e =>
          (e.1.1, some (e.1.2.asRead zones .zinc))) =
        r.entries.map (fun e =>
          (e.1, some (e.2.asRead zones .zinc))) := by
    conv_rhs => rw [← map_fst_spaced r.entries]
    rw [List.map_map]
    rfl
  rw [List.append_nil, hMap] at hCollect
  unfold tags
  rw [← recordOf_entries hr.1]
  exact hCollect.bind_pure recordOf

end Zinc

end Haystack
