import Haystack.Proofs.Tag.Coordinates
import Haystack.Proofs.Tag.Records
import Haystack.Proofs.Zinc.Moments
import Haystack.Zinc.GridReading

/-
  This file shows that values are read back from their text,
  in grids and in filters: the first character leads to the
  right reader, and this one stops where the value ends.

  Key definitions include:
    * `Value.IsReadable`
    * `Value.HasLegibleText`
    * `Value.HasLegibleUri`
    * `Value.ShowsUnit`
    * `Value.asRead`

  Main declarations:
    * `Zinc.readsLoosely_value`
    * `Value.asRead_same_iff`
    * `Zinc.decodeValue_withUnit`
-/

namespace Haystack

------------------------------------------------------------
-- Values that Readers Give
------------------------------------------------------------

/- What is no number has no unit and one form. -/
def Number.IsCanonical (n : Number) : Prop :=
  n.value.isNaN = true → n = .plain .nan

namespace Value

/-
  A reader of the place can give this value, as far as its
  parts are concerned that no text is longer for.
-/
def IsReadable
    (zones : ZoneTable) : Dialect → Value → Prop
| .zinc, .marker => True
| .zinc, .remove => True
| .zinc, .na => True
| .zinc, .bin mime => mime.IsLegible
| .zinc, .coord p => p.IsLegible
| _, .bool _ => True
| _, .number n => n.IsLegible ∧ n.IsCanonical
| _, .str _ => True
| _, .uri _ => True
| _, .date _ => True
| _, .time _ => True
| _, .dateTime x => x.IsLegible zones
| _, .ref _ => True
| _, _ => False

/-
  A reader makes something of the text of the value that is
  not misled by it.
-/
def HasLegibleText : Value → Prop
| .uri u => u.IsLegible
| .dateTime x => x.HasShortOffset
| _ => True

/- The text of the value does not misspell a URI. -/
def HasLegibleUri : Value → Prop
| .uri u => u.IsLegible
| _ => True

/- The text shows the unit, if there is one. -/
def ShowsUnit : Value → Prop
| .number n => n.value.IsFinite ∨ n.unit = none
| _ => True

/-
  What the text of the value is read as: the zone is that of
  the table, only finite numbers have a unit, and filters
  drop labels.
-/
def asRead
    (zones : ZoneTable) : Dialect → Value → Value
| _, .number n =>
    if n.value.IsFinite then .number n
    else .number (.plain n.value)
| _, .dateTime x => .dateTime (x.asRead zones)
| .filter, .ref r => .ref { r with dis := none }
| _, v => v

/- In a grid a value shows its text. -/
theorem textIn_zinc (v : Value) :
    v.textIn .zinc = v.text := by
  cases v <;> rfl

/- Numbers that are not finite lose their units. -/
theorem asRead_number
    (zones : ZoneTable)
    (dialect : Dialect)
    (n : Number) :
    asRead zones dialect (.number n) =
      if n.value.IsFinite then .number n
      else .number (.plain n.value) := by
  cases dialect <;> rfl

/- A value has the same text as what this is read as. -/
theorem textIn_asRead
    (zones : ZoneTable)
    {dialect : Dialect}
    (v : Value) :
    (v.asRead zones dialect).textIn dialect =
      v.textIn dialect := by
  cases v with
  | number n =>
      rw [asRead_number]
      split_ifs with hFinite
      · rfl
      · have hPlain : ¬(Number.plain n.value).value.IsFinite :=
          hFinite
        cases dialect <;>
          simp only [textIn, text, Number.text, hFinite,
            if_false, Number.plain]
  | dateTime x =>
      cases dialect <;>
        simp only [asRead, textIn, text, DateTime.text,
          x.asRead_zone_name] <;>
        rfl
  | _ => cases dialect <;> rfl

/- No reader gives lists or dicts. -/
theorem IsReadable.isSimple
    {zones : ZoneTable}
    {dialect : Dialect}
    {v : Value}
    (hv : v.IsReadable zones dialect) :
    v.IsSimple := by
  cases v with
  | list items => cases dialect <;> cases hv
  | dict d => cases dialect <;> cases hv
  | _ => exact ⟨by simp [kind], by simp [kind]⟩

/- The value is read back if its text shows its unit. -/
theorem asRead_same_iff
    (zones : ZoneTable)
    {dialect : Dialect}
    {v : Value}
    (hv : v.IsReadable zones dialect) :
    (v.asRead zones dialect == v) = true ↔ v.ShowsUnit := by
  change Value.same _ _ = true ↔ _
  cases v with
  | number n =>
      rw [asRead_number, ShowsUnit]
      by_cases hFinite : n.value.IsFinite
      · simp [hFinite, same]
      · rcases n with ⟨x, unit⟩
        simp only [hFinite, if_false, false_or, same,
          Number.plain, beq_iff_eq, Number.mk.injEq, true_and]
        exact eq_comm
  | dateTime x =>
      cases dialect <;>
        simpa [asRead, same, ShowsUnit] using
          x.asRead_same zones
  | ref r =>
      cases dialect <;> simp [asRead, same, ShowsUnit] <;>
        exact decide_eq_true rfl
  | list items => cases dialect <;> cases hv
  | dict d => cases dialect <;> cases hv
  | _ => cases dialect <;> simp [asRead, same, ShowsUnit]

end Value

------------------------------------------------------------
-- How Values Start
------------------------------------------------------------

/- No closer, and no end of an operator, starts a value. -/
def Zinc.startsValue (cs : List Char) : Bool :=
  cs.head?.any
    (fun c => !Zinc.isCloser c && c ≠ '=' && c ≠ '~')

namespace Zinc

/- What starts a value does not close one. -/
theorem isCloser_of_startsValue
    {c : Char}
    {cs : List Char}
    (h : startsValue (c :: cs) = true) :
    isCloser c = false := by
  simp only [startsValue, List.head?_cons, Option.any_some,
    Bool.and_eq_true, Bool.not_eq_true'] at h
  exact h.1.1

/- Digits start values. -/
theorem startsValue_of_isDigit
    {cs : List Char}
    (hHead : cs.head?.any isDigit = true) :
    startsValue cs = true := by
  cases cs with
  | nil => cases hHead
  | cons c cs =>
      by_contra hStart
      have hMark :
          isCloser c = true ∨ c = '=' ∨ c = '~' := by
        simp only [startsValue, List.head?_cons,
          Option.any_some, Bool.and_eq_true,
          Bool.not_eq_true', decide_eq_true_eq] at hStart
        by_contra hNone
        push Not at hNone
        exact
          hStart
            ⟨⟨eq_false_of_ne_true hNone.1, hNone.2.1⟩,
              hNone.2.2⟩
      rcases hMark with hCloser | rfl | rfl
      · rcases eq_of_isCloser hCloser with
          rfl | rfl | rfl | rfl | rfl <;> cases hHead
      all_goals cases hHead

theorem startsValue_digits
    {ds : List Char}
    (hNe : ds ≠ [])
    (hDigits : ds.all isDigit = true)
    (more : List Char) :
    startsValue (ds ++ more) = true := by
  rcases NumeralParts.exists_cons_of_digits hNe hDigits with
    ⟨c, cs, rfl, hc⟩
  exact startsValue_of_isDigit hc

theorem startsValue_number (n : Number) :
    startsValue n.text = true := by
  by_cases hFinite : n.value.IsFinite
  · rw [Number.text_of_isFinite hFinite]
    rcases head_finiteText hFinite n.unitText with
      hDigit | ⟨hDash, -⟩
    · exact startsValue_of_isDigit hDigit
    · rw [startsValue, hDash]
      rfl
  · rcases Number.text_of_not_isFinite hFinite with
      hText | hText | hText <;> rw [hText] <;> rfl

theorem startsValue_date
    (d : Date)
    (more : List Char) :
    startsValue (d.text ++ more) = true := by
  simp only [Date.text, List.append_assoc]
  exact
    startsValue_digits (paddedText_ne_nil _ _)
      (all_isDigit_paddedText _ _) _

/- The text of a value without parts starts like one. -/
theorem startsValue_textIn
    (dialect : Dialect)
    {v : Value}
    (hv : v.IsSimple) :
    startsValue (v.textIn dialect) = true := by
  cases v with
  | number n =>
      cases dialect <;>
        simpa [Value.textIn, Value.text] using
          startsValue_number n
  | date d =>
      have hStart := startsValue_date d []
      cases dialect <;>
        simpa [Value.textIn, Value.text] using hStart
  | time t =>
      have hStart : startsValue t.text = true := by
        rw [Time.text_eq]
        exact
          startsValue_digits (paddedText_ne_nil _ _)
            (all_isDigit_paddedText _ _) _
      cases dialect <;>
        simpa [Value.textIn, Value.text] using hStart
  | dateTime x =>
      have hStart : startsValue x.text = true := by
        simp only [DateTime.text, List.append_assoc]
        exact startsValue_date x.date _
      cases dialect <;>
        simpa [Value.textIn, Value.text] using hStart
  | bool b =>
      cases dialect <;> cases b <;>
        simp [Value.textIn, Value.text] <;> rfl
  | list items => exact absurd rfl hv.1
  | dict d => exact absurd rfl hv.2
  | _ =>
      cases dialect <;>
        simp [Value.textIn, Value.text] <;> rfl

------------------------------------------------------------
-- Reading Values
------------------------------------------------------------

open Scan

section Reading

variable {zones : ZoneTable}
variable {dialect : Dialect}
variable {rest : List Char}

/- No word goes on behind a value. -/
theorem EndsValue.notAlpha (hRest : EndsValue rest) :
    rest.head?.all (fun c => !isAlpha c) = true := by
  apply hRest.head_all _
  intro c hc
  rcases eq_of_isCloser hc with
    rfl | rfl | rfl | rfl | rfl <;> rfl

/- A word that stands for a value on its own. -/
theorem reads_value_name
    (c : Char)
    (letters : List Char)
    {v : Option Value}
    (hStart : isAlpha c = true ∧ isDigit c = false)
    (hLetters : letters.all isAlpha = true)
    (hPlain :
      specialNumber? (String.ofList (c :: letters)) = none)
    (hMeaning :
      wordIn dialect (String.ofList (c :: letters)) = pure v)
    (hRest : EndsValue rest) :
    Reads (value zones dialect) (c :: letters) v rest := by
  apply reads_value_word zones hStart.1 hStart.2
  have hWord :
      Reads (word dialect) (c :: (letters ++ [])) v rest := by
    refine reads_word c letters hLetters hRest.notAlpha hPlain ?_
    rw [hMeaning]
    exact reads_pure v rest
  rwa [List.append_nil] at hWord

/- The cells of those kinds that have no parts. -/
theorem reads_value_marker (hRest : EndsValue rest) :
    Reads (value zones .zinc) ['M'] (some .marker) rest :=
  reads_value_name 'M' [] ⟨rfl, rfl⟩ rfl rfl rfl hRest

theorem reads_value_remove (hRest : EndsValue rest) :
    Reads (value zones .zinc) ['R'] (some .remove) rest :=
  reads_value_name 'R' [] ⟨rfl, rfl⟩ rfl rfl rfl hRest

theorem reads_value_na (hRest : EndsValue rest) :
    Reads (value zones .zinc) ['N', 'A'] (some .na) rest :=
  reads_value_name 'N' ['A'] ⟨rfl, rfl⟩ rfl rfl rfl hRest

/- The null of cells. -/
theorem reads_value_null (hRest : EndsValue rest) :
    Reads (value zones .zinc) ['N'] none rest :=
  reads_value_name 'N' [] ⟨rfl, rfl⟩ rfl rfl rfl hRest

/-
  Each dialect reads the words it has for true and false.
-/
theorem reads_value_bool
    (b : Bool)
    (hRest : EndsValue rest) :
    Reads (value zones dialect)
      (Value.textIn dialect (.bool b)) (some (.bool b))
      rest := by
  cases dialect <;> cases b <;>
    simp only [Value.textIn, Value.text]
  · exact
      reads_value_name 'F' [] ⟨rfl, rfl⟩ rfl rfl rfl hRest
  · exact
      reads_value_name 'T' [] ⟨rfl, rfl⟩ rfl rfl rfl hRest
  · exact
      reads_value_name 'f' ['a', 'l', 's', 'e'] ⟨rfl, rfl⟩ rfl
        rfl rfl hRest
  · exact
      reads_value_name 't' ['r', 'u', 'e'] ⟨rfl, rfl⟩ rfl rfl
        rfl hRest

/- A media type and a place go on in brackets. -/
theorem reads_value_bin
    {mime : MimeType}
    (hMime : mime.IsLegible)
    (rest : List Char) :
    Reads (value zones .zinc) mime.text (some (.bin mime))
      rest := by
  have hInner :
      Reads (cellWord "Bin")
        (['('] ++ mime.name.toList ++ [')'])
        (some (.bin mime)) rest := by
    refine
      (reads_bracketed .bin mime.close_not_mem_name hMime.1
        hMime.2 rest).bind_last ?_
    dsimp only
    rw [String.ofList_toList, mime.ofText_name]
    exact reads_pure _ rest
  exact
    reads_value_word zones rfl rfl
      (reads_word 'B' ['i', 'n'] rfl rfl rfl hInner)

/- A legible place is read back. -/
theorem reads_value_coord
    {p : Coordinates}
    (hp : p.IsLegible)
    (rest : List Char) :
    Reads (value zones .zinc) p.text (some (.coord p))
      rest := by
  have hInner :
      Reads (cellWord "C") (['('] ++ p.innerText ++ [')'])
        (some (.coord p)) rest := by
    refine
      (reads_bracketed .coord
        (p.not_mem_innerText rfl (by decide))
        (p.not_mem_innerText rfl (by decide))
        (p.not_mem_innerText rfl (by decide)) rest).bind_last
        ?_
    dsimp only
    rw [Coordinates.ofText_text hp]
    exact reads_pure _ rest
  rw [p.text_eq]
  exact
    reads_value_word zones rfl rfl
      (reads_word 'C' [] rfl rfl rfl hInner)

/- What is not finite is read by its name, without a unit. -/
theorem reads_value_special
    {n : Number}
    (hFinite : ¬ n.value.IsFinite)
    (hn : n.IsCanonical)
    (hRest : EndsValue rest) :
    Reads (value zones dialect) n.text
      (some (.number (.plain n.value))) rest := by
  rw [Number.text, if_neg hFinite, NumberLayout.text]
  cases hNaN : n.value.isNaN with
  | true =>
      rw [hn hNaN]
      exact
        reads_value_word zones rfl rfl
          (reads_word_special dialect 'N' ['a', 'N'] rfl
            hRest.notAlpha rfl)
  | false =>
      have hNot :
          ¬ n.value.magnitude < Binary64.infiniteMagnitude :=
        hFinite
      have hMagnitude :
          n.value.magnitude = Binary64.infiniteMagnitude := by
        rw [Binary64.isNaN, decide_eq_false_iff_not] at hNaN
        omega
      have hSelf := n.value.ofMagnitude_self
      rw [hMagnitude] at hSelf
      rw [Binary64.isInfinite, hMagnitude]
      cases hNegative : n.value.isNegative with
      | false =>
          rw [hNegative] at hSelf
          rw [← hSelf]
          exact
            reads_value_word zones rfl rfl
              (reads_word_special dialect 'I' ['N', 'F'] rfl
                hRest.notAlpha rfl)
      | true =>
          rw [hNegative] at hSelf
          rw [← hSelf]
          unfold value
          rw [reads_current_bind]
          change Reads (next? >>= _) ['-', 'I', 'N', 'F'] _ rest
          rw [reads_next_bind]
          exact
            reads_word_special dialect '-' ['I', 'N', 'F'] rfl
              hRest.notAlpha rfl

/- A text, a URI and a reference tell by their first mark. -/
theorem reads_value_str
    (cs : List Char)
    (rest : List Char) :
    Reads (value zones dialect) (quote cs)
      (some (.str (String.ofList cs))) rest := by
  unfold value
  rw [reads_current_bind]
  change Reads (next? >>= _) (quote cs) _ rest
  rw [reads_next_bind]
  exact
    (reads_quoted_quote cs rest).bind_pure
      (fun s => some (Value.str s))

/-
  A URI that is spelled right is read back in either
  dialect.
-/
theorem reads_value_uri
    {u : Uri}
    (hu : u.IsLegible)
    (rest : List Char) :
    Reads (value zones dialect) u.text (some (.uri u))
      rest := by
  unfold value
  rw [reads_current_bind]
  change Reads (next? >>= _) u.text _ rest
  rw [reads_next_bind]
  exact
    (reads_uri_text hu rest).bind_pure
      (fun u => some (Value.uri u))

/- After its sign a reference is read as one. -/
theorem readsLoosely_value_ref
    {cs : List Char}
    {r : Ref}
    (hr : ReadsLoosely ref ('@' :: cs) r rest) :
    ReadsLoosely (value zones dialect) ('@' :: cs)
      (some (.ref r)) rest := by
  rcases hr.bind_pure (fun r => some (Value.ref r)) with
    ⟨blank, behind, hRest, hBlank, hReads⟩
  refine ⟨blank, behind, hRest, hBlank, ?_⟩
  unfold value
  rw [reads_current_bind]
  change Reads (next? >>= _) ('@' :: (cs ++ blank)) _ behind
  rw [reads_next_bind]
  exact hReads

/- A padded numeral starts with a digit. -/
theorem head_paddedText
    (width n : Nat)
    (more : List Char) :
    (paddedText width n ++ more).head?.any isDigit = true := by
  rcases
    NumeralParts.exists_cons_of_digits
      (paddedText_ne_nil width n)
      (all_isDigit_paddedText width n) with
    ⟨c, cs, hText, hc⟩
  simp [hText, hc]

/- Dates and times start with digits. -/
theorem reads_value_date
    (d : Date)
    (hRest : EndsValue rest) :
    Reads (value zones dialect) d.text (some (.date d))
      rest := by
  refine
    reads_value_numeric zones dialect (Or.inl ?_)
      (reads_numeric_date zones d ?_)
  · simp only [Date.text, List.append_assoc]
    exact head_paddedText _ _ _
  · intro hHead
    have hCloser := hRest.closer
    rw [hHead] at hCloser
    cases hCloser

/- A time is read back in either dialect. -/
theorem reads_value_time
    (t : Time)
    (hRest : EndsValue rest) :
    Reads (value zones dialect) t.text (some (.time t))
      rest := by
  refine
    reads_value_numeric zones dialect (Or.inl ?_)
      (reads_numeric_time zones t hRest.endsTime)
  rw [Time.text_eq]
  exact head_paddedText _ _ _

/-
  A date-time is read back as the moment it shows, in the
  zone of the table.
-/
theorem reads_value_dateTime
    {x : DateTime}
    (hx : x.IsLegible zones)
    (hShort : x.HasShortOffset)
    (hRest : EndsValue rest) :
    Reads (value zones dialect) x.text
      (some (.dateTime (x.asRead zones))) rest := by
  refine
    reads_value_numeric zones dialect (Or.inl ?_)
      (reads_numeric_dateTime hx hShort ?_)
  · simp only [DateTime.text, Date.text, List.append_assoc]
    exact head_paddedText _ _ _
  · apply hRest.head_all _
    intro c hc
    rcases eq_of_isCloser hc with
      rfl | rfl | rfl | rfl | rfl <;> rfl

/-
  Each value is read from its text, whatever follows that can
  follow a value. Only a reference looks behind spaces.
-/
theorem readsLoosely_value
    {v : Value}
    (hv : v.IsReadable zones dialect)
    (hText : v.HasLegibleText)
    (hRest : EndsValue rest) :
    ReadsLoosely (value zones dialect) (v.textIn dialect)
      (some (v.asRead zones dialect)) rest := by
  cases v with
  | marker =>
      cases dialect with
      | filter => cases hv
      | zinc =>
          simpa [Value.textIn, Value.text, Value.asRead] using
            (reads_value_marker hRest).loosely
  | remove =>
      cases dialect with
      | filter => cases hv
      | zinc =>
          simpa [Value.textIn, Value.text, Value.asRead] using
            (reads_value_remove hRest).loosely
  | na =>
      cases dialect with
      | filter => cases hv
      | zinc =>
          simpa [Value.textIn, Value.text, Value.asRead] using
            (reads_value_na hRest).loosely
  | bool b =>
      cases dialect <;>
        exact (reads_value_bool b hRest).loosely
  | number n =>
      have hNumber : n.IsLegible ∧ n.IsCanonical := by
        cases dialect <;> exact hv
      rw [Value.asRead_number,
        show Value.textIn dialect (.number n) = n.text by
          cases dialect <;> simp [Value.textIn, Value.text]]
      by_cases hFinite : n.value.IsFinite
      · rw [if_pos hFinite]
        exact
          (reads_value_finite zones dialect hFinite hNumber.1
            hRest).loosely
      · rw [if_neg hFinite]
        exact
          (reads_value_special hFinite hNumber.2
            hRest).loosely
  | str s =>
      have hStr :=
        (@reads_value_str zones dialect s.toList rest).loosely
      rw [String.ofList_toList] at hStr
      cases dialect <;>
        simpa [Value.textIn, Value.text, Value.asRead] using
          hStr
  | uri u =>
      cases dialect <;>
        simpa [Value.textIn, Value.text, Value.asRead] using
          (reads_value_uri hText rest).loosely
  | bin mime =>
      cases dialect with
      | filter => cases hv
      | zinc =>
          simpa [Value.textIn, Value.text, Value.asRead] using
            (reads_value_bin hv rest).loosely
  | coord p =>
      cases dialect with
      | filter => cases hv
      | zinc =>
          simpa [Value.textIn, Value.text, Value.asRead] using
            (reads_value_coord hv rest).loosely
  | date d =>
      cases dialect <;>
        simpa [Value.textIn, Value.text, Value.asRead] using
          (reads_value_date d hRest).loosely
  | time t =>
      cases dialect <;>
        simpa [Value.textIn, Value.text, Value.asRead] using
          (reads_value_time t hRest).loosely
  | dateTime x =>
      cases dialect <;>
        simpa [Value.textIn, Value.text, Value.asRead] using
          (reads_value_dateTime hv hText hRest).loosely
  -- Labels are written in grids only.
  | ref r =>
      have hPlain :
          ReadsLoosely (value zones dialect)
            ('@' :: r.id.toList)
            (some (.ref { r with dis := none })) rest :=
        readsLoosely_value_ref (readsLoosely_ref_plain r hRest)
      cases dialect with
      | filter =>
          simpa [Value.textIn, Value.asRead] using hPlain
      | zinc =>
          rw [Value.textIn, Value.text, Value.asRead, Ref.text]
          · rcases r with ⟨id, dis, valid⟩
            cases dis with
            | none => simpa using hPlain
            | some dis =>
                exact
                  readsLoosely_value_ref
                    (reads_ref_labelled _ dis rest).loosely
          all_goals simp
  | list items => cases dialect <;> cases hv
  | dict d => cases dialect <;> cases hv

end Reading

------------------------------------------------------------
-- Texts that Are One Value
------------------------------------------------------------

/- A text that is read as a value to its end is that value. -/
theorem decodeValue_of_reads
    {cs : List Char}
    {v : Option Value}
    (h : Reads (value .builtin .zinc) cs v []) :
    decodeValue (String.ofList cs) = .ok v := by
  have hScalar : Reads (scalar .builtin) cs v [] := by
    unfold scalar
    refine h.bind_last ?_
    exact reads_finish.bind_last (reads_pure v [])
  exact hScalar.readAll_eq

/-
  The text of a finite number with a unit is read as a number
  with the same bits, whose unit is what comes after the
  underscores that the written one starts with. It is the
  same number if and only if there are none.
-/
theorem decodeValue_withUnit
    {x : Binary64}
    (hx : x.IsFinite)
    {unit : String}
    (hUnit : isUnitName unit.toList = true) :
    ∃ written read,
      Number.withUnit x unit = .ok written ∧
        decodeValue
            (String.ofList (Value.text (.number written))) =
          .ok (some (.number read)) ∧
        read.value = x ∧
        read.unitText = unit.toList.dropWhile (· = '_') ∧
        ((Value.number read == .number written) = true ↔
          unit.toList.head? ≠ some '_') := by
  let written : Number := ⟨x, some ⟨unit, hUnit⟩⟩
  have hMake : Number.withUnit x unit = .ok written := by
    rw [Number.withUnit, UnitName.ofText, dif_pos hUnit]
    rfl
  have hRead :
      decodeValue
          (String.ofList (Value.text (.number written))) =
        .ok (some (.number written.trimmed)) := by
    rw [Value.text]
    exact
      decodeValue_of_reads
        (reads_value_trimmed .builtin .zinc (n := written) hx
          endsValue_nil)
  refine
    ⟨written, written.trimmed, hMake, hRead, rfl,
      written.unitText_trimmed, ?_⟩
  change (written.trimmed == written) = true ↔ _
  rw [beq_iff_eq, written.trimmed_eq_iff, written.isLegible_iff]
  rfl

/- Five kilowatts are read where the unit was `_kW`. -/
theorem decodeValue_underscore :
    (Binary64.ofInt 5).IsFinite ∧
      isUnitName "_kW".toList = true ∧
      ∃ written read,
        Number.withUnit (.ofInt 5) "_kW" = .ok written ∧
          String.ofList (Value.text (.number written)) =
            "5_kW" ∧
          decodeValue "5_kW" = .ok (some (.number read)) ∧
          read.value = .ofInt 5 ∧
          read.unitText = ['k', 'W'] ∧
          (Value.number read == .number written) = false := by
  have hFinite : (Binary64.ofInt 5).IsFinite := by
    decide +kernel
  have hUnit : isUnitName "_kW".toList = true := by
    decide
  rcases decodeValue_withUnit hFinite hUnit with
    ⟨written, read, hMake, hRead, hValue, hText, hSame⟩
  have hWritten : written = ⟨.ofInt 5, some ⟨"_kW", rfl⟩⟩ := by
    cases hMake
    rfl
  have hSpelled :
      String.ofList (Value.text (.number written)) = "5_kW" := by
    rw [hWritten, Value.text]
    decide +kernel
  rw [hSpelled] at hRead
  refine
    ⟨hFinite, hUnit, written, read, hMake, hSpelled, hRead,
      hValue, hText, ?_⟩
  rw [Bool.eq_false_iff]
  exact fun h => hSame.mp h rfl

end Zinc

end Haystack
