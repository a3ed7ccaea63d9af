import Haystack.Proofs.Zinc.Exact

/-
  This file shows that the entries of a record are read back
  from a text of their own, as a record and as the changes to
  one. The two readers differ in what they pass between two
  tags: both pass a space, and one a comma as well, with any
  spaces around it.

  Key definitions include:
    * `Zinc.Lists`
    * `Zinc.IsComma`
    * `Zinc.GoesOn`
    * `Zinc.ReadsEach`

  Main declarations:
    * `Zinc.Lists.reads_collect`
    * `Zinc.decodeDict_of_lists`
    * `Zinc.decodeDiff_of_lists`
    * `Record.IsExact.decodeDict_and_decodeDiff`
-/

namespace Haystack

namespace Zinc

open Scan

------------------------------------------------------------
-- Texts of Entries
------------------------------------------------------------

/-
  The text is that of the entries in their order, with a text
  of one kind between each and the next.
-/
inductive Lists (isBetween : List Char → Prop) :
    List (String × Value) → List Char → Prop where
| nil : Lists isBetween [] []
| last
    (e : String × Value) :
    Lists isBetween [e] (Value.entryText e.1 e.2)
| next
    (e : String × Value)
    {following : String × Value}
    {entries : List (String × Value)}
    {between cs : List Char}
    (hBetween : isBetween between)
    (hMore : Lists isBetween (following :: entries) cs) :
    Lists isBetween (e :: following :: entries)
      (Value.entryText e.1 e.2 ++ (between ++ cs))

/- A comma with any spaces around it. -/
def IsComma (between : List Char) : Prop :=
  ∃ before after,
    before.all isSpace = true ∧ after.all isSpace = true ∧
      between = before ++ ',' :: after

/- The text of a record has a space between two entries. -/
theorem lists_entriesText (entries : List (String × Value)) :
    Lists (· = [' ']) entries (Value.entriesText entries) := by
  induction entries with
  | nil =>
      rw [Value.entriesText]
      exact .nil
  | cons e entries ih =>
      cases entries with
      | nil =>
          rw [Value.entriesText]
          exact .last e
      | cons following entries =>
          rw [Value.entriesText, List.append_assoc]
          · exact .next e rfl ih
          · simp

section Lists

variable {isBetween : List Char → Prop}
variable {e : String × Value}
variable {entries : List (String × Value)}
variable {cs : List Char}

/- A text of entries starts as the first key does. -/
theorem Lists.exists_cons
    (hLists : Lists isBetween (e :: entries) cs)
    (hName : isTagName e.1.toList = true) :
    ∃ c ds, cs = c :: ds ∧ isTagStart c = true := by
  rcases exists_cons_entryText hName with ⟨c, ds, hText, hc⟩
  cases hLists with
  | last => exact ⟨c, ds, hText, hc⟩
  | next => exact ⟨c, _, by rw [hText]; rfl, hc⟩

/- A list of entries does not start with a space. -/
theorem Lists.head_notSpace
    (hLists : Lists isBetween entries cs)
    (hNames : ∀ e ∈ entries, isTagName e.1.toList = true) :
    cs.head?.all (fun c => !isSpace c) = true := by
  cases entries with
  | nil =>
      cases hLists
      rfl
  | cons e entries =>
      rcases hLists.exists_cons (hNames e (List.mem_cons_self ..))
        with ⟨c, ds, rfl, hc⟩
      simp [(not_of_isTagStart hc).1]

end Lists

------------------------------------------------------------
-- Reading Entry by Entry
------------------------------------------------------------

/-
  What stands behind an entry: a text of the kind and the
  start of the next tag, or the end.
-/
inductive GoesOn (isBetween : List Char → Prop) :
    List Char → List Char → Prop where
| last : GoesOn isBetween [] []
| next
    {between : List Char}
    {c : Char}
    (hBetween : isBetween between)
    (hc : isTagStart c = true)
    (ds : List Char) :
    GoesOn isBetween between (c :: ds)

/- The reader takes each entry with what stands behind it. -/
def ReadsEach
    (zones : ZoneTable)
    (isBetween : List Char → Prop)
    (item? : Scan (Option Tag)) : Prop :=
  ∀ (e : String × Value) (between rest : List Char),
    isTagName e.1.toList = true → e.2.IsLegible zones →
      GoesOn isBetween between rest →
        Reads item? (Value.entryText e.1 e.2 ++ between)
          (some (e.1, some (e.2.asRead zones .zinc))) rest

/-
  By induction on the text: the entries are collected one by
  one, up to the end.
-/
theorem Lists.reads_collect
    {zones : ZoneTable}
    {isBetween : List Char → Prop}
    {item? : Scan (Option Tag)}
    (hEach : ReadsEach zones isBetween item?)
    (hStop : Reads item? [] none [])
    {entries : List (String × Value)}
    {cs : List Char}
    (hLists : Lists isBetween entries cs)
    (hEntries :
      ∀ e ∈ entries,
        isTagName e.1.toList = true ∧ e.2.IsLegible zones) :
    Reads (collect item?) cs
      (entries.map (fun e =>
        (e.1, some (e.2.asRead zones .zinc))))
      [] := by
  have hNe {e : String × Value}
      (hName : isTagName e.1.toList = true)
      (between : List Char) :
      Value.entryText e.1 e.2 ++ between ≠ [] := by
    rcases exists_cons_entryText hName with ⟨c, ds, hText, -⟩
    simp [hText]
  apply CollectsOn.reads
  induction hLists with
  | nil => exact .stop hStop
  | last e =>
      rcases hEntries e (List.mem_cons_self ..) with ⟨hName, hv⟩
      have hEntry := hEach e [] [] hName hv .last
      have hAll :=
        CollectsOn.next hEntry (hNe hName []) (.stop hStop)
      rwa [List.append_nil, List.append_nil] at hAll
  | next e hBetween hMore ih =>
      rw [List.forall_mem_cons] at hEntries
      rcases hEntries with ⟨⟨hName, hv⟩, hRest⟩
      rcases hMore.exists_cons
          (hRest _ (List.mem_cons_self ..)).1 with
        ⟨c, ds, rfl, hc⟩
      have hEntry :=
        hEach e _ _ hName hv (.next hBetween hc (ds ++ []))
      have hAll :=
        CollectsOn.next hEntry (hNe hName _) (ih hRest)
      rwa [List.append_assoc] at hAll

------------------------------------------------------------
-- Both Readers
------------------------------------------------------------

/- Tags with a space between two are read one by one. -/
theorem readsEach_tag? (zones : ZoneTable) :
    ReadsEach zones (· = [' ']) (tag? zones) := by
  intro e between rest hName hv hOn
  cases hOn with
  | last =>
      exact
        reads_tag hName hv rfl endsValue_nil rfl (by simp)
  | next hBetween hc ds =>
      rcases not_of_isTagStart hc with
        ⟨hSpace, hColon, hQuote, -⟩
      subst hBetween
      exact
        reads_tag hName hv rfl
          (endsValue_space hQuote hSpace ds) (by simp [hSpace])
          (by simpa using hColon)

/- What stands behind the spaces after a tag of a diff. -/
def IsBehind (behind rest : List Char) : Prop :=
  behind = [] ∧ rest.head? ≠ some ',' ∨
    ∃ after, after.all isSpace = true ∧ behind = ',' :: after

/- A comma is passed with the spaces behind it, if there is one. -/
theorem reads_behind
    {α : Type}
    {behind rest : List Char}
    (hBehind : IsBehind behind rest)
    (hSpace :
      rest.head?.all (fun c => !isSpace c) = true)
    (a : α) :
    Reads
      (do
        if (← current?) = some ',' then
          advance
          skipSpace
        return a)
      behind a rest := by
  rw [reads_current_bind]
  rcases hBehind with ⟨rfl, hComma⟩ | ⟨after, hAfter, rfl⟩
  · rw [List.nil_append, if_neg hComma]
    exact reads_pure a rest
  · rw [if_pos (by rfl)]
    refine Reads.advance_bind ?_ ','
    exact
      (reads_skipSpace hAfter hSpace).bind_last
        (reads_pure a rest)

/-
  A tag is read with the spaces after it, and with a comma
  and the spaces behind that.
-/
theorem reads_diffTag
    {zones : ZoneTable}
    {e : String × Value}
    (hName : isTagName e.1.toList = true)
    (hv : e.2.IsLegible zones)
    (blank behind : List Char)
    {rest : List Char}
    (hBlank : blank.all isSpace = true)
    (hBehind : IsBehind behind rest)
    (hEnds : EndsValue (blank ++ (behind ++ rest)))
    (hSpace :
      rest.head?.all (fun c => !isSpace c) = true) :
    Reads (diffTag? zones)
      (Value.entryText e.1 e.2 ++ (blank ++ behind))
      (some (e.1, some (e.2.asRead zones .zinc))) rest := by
  rcases e with ⟨key, v⟩
  dsimp only at *
  rcases exists_cons_of_isTagName hName with
    ⟨c, cs, hKey, hc⟩
  have hHead :
      (behind ++ rest).head?.all (fun c => !isSpace c) =
        true := by
    rcases hBehind with ⟨rfl, -⟩ | ⟨after, -, rfl⟩
    · exact hSpace
    · rfl
  unfold diffTag?
  rw [reads_current_bind]
  rcases entryText_eq key v with ⟨rfl, hEntry⟩ | hEntry
  · -- where a value could end, no colon follows a marker
    rw [hEntry, if_pos (by simp [hKey, hc])]
    rw [← List.append_assoc] at hEnds
    refine
      Reads.bind (reads_tagName hName hEnds.notTagChar) ?_
    have hColon :
        ((blank ++ behind) ++ rest).head? ≠ some ':' := by
      have hCloser := hEnds.closer
      intro hHead
      rw [hHead] at hCloser
      cases hCloser
    rw [reads_current_bind, if_neg hColon, reads_pure_bind]
    exact
      Reads.bind (reads_skipSpace hBlank hHead)
        (reads_behind hBehind hSpace _)
  · -- a reference without a label passes the spaces itself
    rw [hEntry, if_pos (by simp [hKey, hc]),
      List.append_assoc, List.cons_append]
    apply Reads.bind (reads_tagName hName rfl)
    rw [reads_current_bind, if_pos (by rfl)]
    refine Reads.advance_bind ?_ ':'
    exact
      (readsLoosely_value hv.1 hv.2 hEnds).bind_skipSpace
        hBlank hHead (reads_behind hBehind hSpace _)

/- So are tags with a space or a comma between two. -/
theorem readsEach_diffTag?
    (zones : ZoneTable)
    {isBetween : List Char → Prop}
    (hKind : ∀ between,
      isBetween between → between = [' '] ∨ IsComma between) :
    ReadsEach zones isBetween (diffTag? zones) := by
  intro e between rest hName hv hOn
  cases hOn with
  | last =>
      have hEnd : IsBehind [] [] := Or.inl ⟨rfl, by simp⟩
      exact
        reads_diffTag hName hv [] [] rfl hEnd endsValue_nil rfl
  | @next between c hBetween hc ds =>
      rcases not_of_isTagStart hc with ⟨hSpace, -, hQuote, -⟩
      have hHead :
          (c :: ds).head?.all (fun c => !isSpace c) = true := by
        simp [hSpace]
      rcases hKind between hBetween with
        rfl | ⟨before, after, hBefore, hAfter, rfl⟩
      · have hNot : (c :: ds).head? ≠ some ',' := by
          rintro hComma
          cases hComma
          cases hc
        exact
          reads_diffTag hName hv [' '] [] rfl
            (Or.inl ⟨rfl, hNot⟩)
            (endsValue_space hQuote hSpace ds) hHead
      · exact
          reads_diffTag hName hv before _ hBefore
            (Or.inr ⟨after, hAfter, rfl⟩)
            ((endsValue_cons rfl rfl _).after_blank hBefore)
            hHead

------------------------------------------------------------
-- Whole Texts
------------------------------------------------------------

section Texts

variable {isBetween : List Char → Prop}
variable {d : Record}
variable {cs : List Char}

/- The record of all entries is read, without any before it. -/
theorem Lists.readAll_eq
    {item? : Scan (Option Tag)}
    (hEach : ReadsEach .builtin isBetween item?)
    (hStop : Reads item? [] none [])
    (hd : d.IsReadable .builtin)
    (hText : d.HasLegibleText)
    (hLists : Lists isBetween d.entries cs) :
    readAll
        (do
          skipSpace
          let tags ← collect item?
          finish
          return recordOf tags)
        (String.ofList cs) =
      .ok (d.asRead .builtin) := by
  have hHead :
      (cs ++ []).head?.all (fun c => !isSpace c) = true := by
    rw [List.append_nil]
    exact hLists.head_notSpace (fun e he => (hd.2 e he).1)
  have hTags :=
    hLists.reads_collect hEach hStop
      (fun e he =>
        ⟨(hd.2 e he).1, (hd.2 e he).2, hText.of_mem he⟩)
  apply Reads.readAll_eq
  refine Reads.bind_of_nil (reads_skipSpace_nil hHead) ?_
  refine hTags.bind_last ?_
  rw [recordOf_entries hd.1]
  exact reads_finish.bind_last (reads_pure _ [])

/- A record is read from its entries with spaces. -/
theorem decodeDict_of_lists
    (hd : d.IsReadable .builtin)
    (hText : d.HasLegibleText)
    (hLists : Lists (· = [' ']) d.entries cs) :
    decodeDict (String.ofList cs) =
      .ok (d.asRead .builtin) := by
  have hRead :=
    hLists.readAll_eq (readsEach_tag? .builtin)
      (reads_pure none []) hd hText
  simpa only [decodeDict, dict, tags, bind_assoc, pure_bind]
    using hRead

/- So are changes, from entries with spaces or commas. -/
theorem decodeDiff_of_lists
    (hKind : ∀ between,
      isBetween between → between = [' '] ∨ IsComma between)
    (hd : d.IsReadable .builtin)
    (hText : d.HasLegibleText)
    (hLists : Lists isBetween d.entries cs) :
    decodeDiff (String.ofList cs) =
      .ok (d.asRead .builtin) :=
  hLists.readAll_eq (readsEach_diffTag? .builtin hKind)
    (reads_pure none []) hd hText

end Texts

end Zinc

------------------------------------------------------------
-- Exact Records
------------------------------------------------------------

namespace Record.IsExact

open Zinc

variable {d : Record}

/-
  An exact record is read back entry by entry, labels
  included. Its own text is read as a record and as changes
  alike, and so are its entries with commas between them:
  with these changes any record becomes what it becomes by
  merging the record into it.
-/
theorem decodeDict_and_decodeDiff (hd : d.IsExact) :
    decodeDict (String.ofList d.text) = .ok d ∧
      decodeDiff (String.ofList d.text) = .ok d ∧
      ∀ cs, Lists IsComma d.entries cs →
        decodeDiff (String.ofList cs) = .ok d ∧
          ∀ x : Record,
            (decodeDiff (String.ofList cs)).map
                (Record.merge x) =
              .ok (Record.merge x d) := by
  rcases hd.isReadable with ⟨hRead, hText⟩
  have hSpaces : Lists (· = [' ']) d.entries d.text :=
    lists_entriesText d.entries
  have hDict := decodeDict_of_lists hRead hText hSpaces
  have hDiff :=
    decodeDiff_of_lists (fun _ h => Or.inl h) hRead hText
      hSpaces
  rw [hd.asRead_eq] at hDict hDiff
  refine ⟨hDict, hDiff, ?_⟩
  intro cs hCommas
  have hBoth :=
    decodeDiff_of_lists (fun _ h => Or.inr h) hRead hText
      hCommas
  rw [hd.asRead_eq] at hBoth
  refine ⟨hBoth, fun x => ?_⟩
  rw [hBoth]
  rfl

/- A report with a label, a unit and entries to take away. -/
def pumpReport : Record :=
  ⟨[ ("pump", .marker),
      ("room", .ref ⟨"pit:1", some "Pit, 1", rfl⟩),
      ("flow", .number ⟨.ofInt 12, some ⟨"L/s", rfl⟩⟩),
      ("site", .ref ⟨"east", none, rfl⟩),
      ("idle", .remove), ("on", .bool true)]⟩

/- Its entries, with commas far from and next to them. -/
def pumpReportText : String :=
  "pump,room:@pit:1 \"Pit, 1\" ,\tflow:12L/s , " ++
    "site:@east\t,idle:R,on:T"

/-
  A report whose list has spaces on both sides of its
  commas, read by either reader.
-/
theorem decodeDict_and_decodeDiff_pumpReport :
    pumpReport.IsExact ∧
      Lists IsComma pumpReport.entries pumpReportText.toList ∧
      decodeDict (String.ofList pumpReport.text) =
        .ok pumpReport ∧
      decodeDiff pumpReportText = .ok pumpReport := by
  have hExact : pumpReport.IsExact := by
    decide
  have hListed :
      ∃ cs, Lists IsComma pumpReport.entries cs ∧
        cs = pumpReportText.toList := by
    refine
      ⟨_, .next _ ⟨[], [], rfl, rfl, rfl⟩ <|
        .next _ ⟨[' '], ['\t'], rfl, rfl, rfl⟩ <|
        .next _ ⟨[' '], [' '], rfl, rfl, rfl⟩ <|
        .next _ ⟨['\t'], [], rfl, rfl, rfl⟩ <|
        .next _ ⟨[], [], rfl, rfl, rfl⟩ <| .last _, ?_⟩
    simp only [Value.entryText, Value.text]
    decide +kernel
  rcases hListed with ⟨cs, hLists, rfl⟩
  have hRead := decodeDict_and_decodeDiff hExact
  have hDiff := (hRead.2.2 _ hLists).1
  rw [String.ofList_toList] at hDiff
  exact ⟨hExact, hLists, hRead.1, hDiff⟩

end Record.IsExact

end Haystack
