import Haystack.Proofs.Zinc.Backslashes
import Haystack.Proofs.Zinc.Values

/-
  This file shows which values the reader of values gives,
  and that the text that it takes pays for them: it has at
  least the burden of what is written for the value.

  Key definitions include:
    * `Cursor.Pays`
    * `Value.cost`
    * `Zinc.GivesValue`

  Main declarations:
    * `Zinc.givesValue_value`
-/

namespace Haystack

open Scan

------------------------------------------------------------
-- Payment
------------------------------------------------------------

/- The character is no backslash and no quotation mark. -/
def isPlain (c : Char) : Bool :=
  c ∉ ['\\', '"', '`']

namespace Cursor

/- The burden that lies between the places is enough. -/
def Pays
    (c : Cursor)
    (n : Nat)
    (d : Cursor) : Prop :=
  burden .start d.rest + n ≤ burden .start c.rest

variable {c d e : Cursor}

/- Payments add up from place to place. -/
theorem Pays.trans
    {n m : Nat}
    (hFirst : c.Pays n d)
    (hSecond : d.Pays m e) :
    c.Pays (n + m) e := by
  unfold Pays at hFirst hSecond ⊢
  omega

theorem Pays.trans_zero
    {n : Nat}
    (hFirst : c.Pays 0 d)
    (hSecond : d.Pays n e) :
    c.Pays n e := by
  unfold Pays at hFirst hSecond ⊢
  omega

theorem Pays.zero_trans
    {n : Nat}
    (hFirst : c.Pays n d)
    (hSecond : d.Pays 0 e) :
    c.Pays n e :=
  hFirst.trans hSecond

/- Away from backslashes the burden stays. -/
theorem burden_of_passes
    (h : Passes isPlain c d) :
    burden .start c.rest = burden .start d.rest := by
  rcases h with ⟨taken, hRest, hTaken⟩
  have hNone : '\\' ∉ taken := not_mem_of_all rfl hTaken
  have hStart := Trail.after_start hNone
  rw [hRest, Trail.burden_append, hStart.1, hStart.2,
    Nat.zero_add]

/- Plain characters pay for what costs nothing. -/
theorem pays_of_passes
    (h : Passes isPlain c d) :
    c.Pays 0 d := by
  rw [Pays, burden_of_passes h]
  exact Nat.le_refl _

/- Behind other characters a text starts anew. -/
theorem pays_of_append
    {taken : List Char}
    {x : Char}
    (hx : isEscapeChar x = false)
    (hRest : c.rest = taken ++ x :: d.rest) :
    c.Pays (burden .start taken) d := by
  rw [Pays, hRest, Trail.burden_append,
    Trail.burden_cons hx]
  omega

end Cursor

/-
  What is paid for a value where it is read. Only URIs and
  media types show backslashes without doubling them.
-/
def Value.cost : Value → Nat
| .uri u => u.cost
| .bin mime => burden .start mime.text
| _ => 0

namespace Zinc

/- What a reader of values gives, and what the text pays. -/
structure GivesValue
    (zones : ZoneTable)
    (dialect : Dialect)
    (v : Option Value)
    (c d : Cursor) : Prop where
  readable :
    ∀ w, v = some w → w.IsReadable zones dialect
  pays : c.Pays (v.elim 0 Value.cost) d

/- A value that is given for a text without a backslash. -/
structure GivesPlain
    (zones : ZoneTable)
    (dialect : Dialect)
    (v : Value)
    (c d : Cursor) : Prop where
  readable : v.IsReadable zones dialect
  passes : c.Passes isPlain d
  cost_eq_zero : v.cost = 0

variable {zones : ZoneTable}
variable {dialect : Dialect}
variable {c d : Cursor}

/- A value is given where it is readable and paid for. -/
theorem givesValue_some
    {v : Value}
    (hv : v.IsReadable zones dialect)
    (hPays : c.Pays v.cost d) :
    GivesValue zones dialect (some v) c d := by
  refine ⟨?_, hPays⟩
  rintro w hw
  cases hw
  exact hv

/- A value of plain characters is one that is given. -/
theorem GivesPlain.givesValue
    {v : Value}
    (hv : GivesPlain zones dialect v c d) :
    GivesValue zones dialect (some v) c d := by
  refine givesValue_some hv.readable ?_
  rw [hv.cost_eq_zero]
  exact Cursor.pays_of_passes hv.passes

/- A class of characters may have none of these in it. -/
theorem isPlain_of
    {p : Char → Bool}
    (hp : ['\\', '"', '`'].all (fun c => !p c) = true)
    (x : Char)
    (hx : p x = true) :
    isPlain x = true :=
  decide_eq_true (not_mem_marks hp hx)

/- Spaces are plain characters. -/
theorem passes_space
    {u : Unit}
    (h : skipSpace c = .ok u d) :
    c.Passes isPlain d :=
  (passes_skipSpace h).mono (isPlain_of rfl)

/- A plain character is passed by stepping over it. -/
theorem passes_plain_advance
    {x : Char}
    (hHead : c.current? = some x)
    (hx : isPlain x = true) :
    c.Passes isPlain c.advance := by
  apply Cursor.passes_advance
  rw [hHead]
  exact hx

/- Two digits are plain characters. -/
theorem passes_twoDigits
    {what : Expected}
    {n : Nat}
    (h : twoDigits what c = .ok n d) :
    c.Passes isPlain d := by
  refine passes_digitsOf ?_ h
  intro x hx
  refine isPlain_of (p := isDigit) rfl x ?_
  unfold digitValue? at hx
  split_ifs at hx with hDigit
  · exact hDigit
  · cases hx

------------------------------------------------------------
-- Texts
------------------------------------------------------------

theorem passes_fourHexDigits
    {n : Nat}
    (h : fourHexDigits c = .ok n d) :
    c.Passes (fun _ => true) d :=
  passes_digitsOf (fun _ _ => rfl) h

theorem passes_step (c : Cursor) :
    c.Passes (fun _ => true) c.advance :=
  Cursor.passes_advance (by cases c.current? <;> rfl)

/- The reader of a code goes on from place to place. -/
theorem passes_unicodeEscape
    {x : Char}
    (h : unicodeEscape c = .ok x d) :
    c.Passes (fun _ => true) d := by
  unfold unicodeEscape at h
  rcases bind_eq_ok.mp h with ⟨code, c', hCode, h⟩
  refine (passes_fourHexDigits hCode).trans ?_
  rw [current_bind_apply, next_bind_apply] at h
  split_ifs at h
  · rw [advance_bind_apply, advance_bind_apply] at h
    rcases bind_eq_ok.mp h with ⟨low, c'', hLow, h⟩
    refine (passes_step c').trans ?_
    refine (passes_step c'.advance).trans ?_
    refine (passes_fourHexDigits hLow).trans ?_
    split_ifs at h
    · rw [(charOf_eq_ok h).2]
      exact .refl d
    · cases h
  · rw [(charOf_eq_ok h).2]
    exact .refl d

/- An escape takes what stands behind its backslash. -/
theorem passes_escaped
    {x : Char}
    (h : escaped c = .ok x d) :
    c.advance.Passes (fun _ => true) d := by
  unfold escaped at h
  rw [advance_bind_apply, current_bind_apply] at h
  cases hHead : c.advance.current? with
  | none =>
      rw [hHead] at h
      cases h
  | some y =>
      rw [hHead] at h
      dsimp only at h
      cases hShort : shortEscape? y with
      | some z =>
          rw [hShort] at h
          dsimp only at h
          rw [advance_bind_apply] at h
          rcases pure_eq_ok.mp h with ⟨-, rfl⟩
          exact passes_step c.advance
      | none =>
          rw [hShort] at h
          dsimp only at h
          split_ifs at h
          · rw [advance_bind_apply] at h
            exact
              (passes_step c.advance).trans
                (passes_unicodeEscape h)
          · cases h

/- A character between quotes is read, or they close. -/
theorem quotedChar_eq_ok
    {x : Option Char}
    (h : quotedChar? c = .ok x d) :
    (x = none ∧ c.current? = some '"' ∧ c = d) ∨
      ∃ y, x = some y ∧ c.current?.isSome = true ∧
        c.advance.Passes (fun _ => true) d := by
  unfold quotedChar? at h
  rw [current_bind_apply] at h
  cases hHead : c.current? with
  | none =>
      rw [hHead] at h
      cases h
  | some y =>
      rw [hHead] at h
      dsimp only at h
      split_ifs at h with hQuote hNewline hBackslash
      · rcases pure_eq_ok.mp h with ⟨rfl, hPlace⟩
        exact Or.inl ⟨rfl, by rw [hQuote], hPlace⟩
      · cases h
      · rcases bind_eq_ok.mp h with ⟨z, e, hEscaped, hPure⟩
        rcases pure_eq_ok.mp hPure with ⟨rfl, rfl⟩
        exact Or.inr ⟨z, rfl, rfl, passes_escaped hEscaped⟩
      · rw [advance_bind_apply] at h
        rcases pure_eq_ok.mp h with ⟨rfl, rfl⟩
        exact Or.inr ⟨y, rfl, rfl, .refl c.advance⟩

/- A quoted character takes one at least. -/
theorem length_lt_of_quotedChar
    (x : Char)
    (c d : Cursor)
    (h : quotedChar? c = .ok (some x) d) :
    d.rest.length < c.rest.length := by
  rcases quotedChar_eq_ok h with
    ⟨hNone, -⟩ | ⟨_, -, hSome, hMore⟩
  · cases hNone
  · have hStep := Cursor.length_advance hSome
    have hLess := hMore.length_le
    omega

/- A text in quotes is read up to the closing quote. -/
theorem quoted_eq_ok
    {text : String}
    (h : quoted c = .ok text d) :
    ∃ taken, c.rest = taken ++ '"' :: d.rest := by
  unfold quoted at h
  rw [advance_bind_apply] at h
  rcases bind_eq_ok.mp h with ⟨chars, e, hCollect, h⟩
  rw [advance_bind_apply] at h
  rcases pure_eq_ok.mp h with ⟨-, rfl⟩
  have hChars :
      c.Passes (fun _ => true) e ∧ e.current? = some '"' :=
    collect_takes (fun _ _ _ => quotedChar_eq_ok)
      length_lt_of_quotedChar
      (fun _ e => c.Passes (fun _ => true) e)
      (fun _ _ c' _ hPasses hChar =>
        hPasses.trans ((passes_step c').trans hChar.2))
      (passes_step c) hCollect
  rcases hChars with ⟨⟨taken, hRest, -⟩, hClose⟩
  refine ⟨taken, ?_⟩
  rw [hRest, Cursor.rest_of_current hClose]

/-
  Quoted text costs nothing, since it doubles backslashes.
-/
theorem pays_quoted
    {text : String}
    (h : quoted c = .ok text d) :
    c.Pays 0 d := by
  rcases quoted_eq_ok h with ⟨taken, hRest⟩
  have hPays := Cursor.pays_of_append rfl hRest
  unfold Cursor.Pays at hPays ⊢
  omega

------------------------------------------------------------
-- Round Brackets
------------------------------------------------------------

/- A character in brackets is read, or they close. -/
theorem bracketedChar_eq_ok
    {what : Enclosed}
    {x : Option Char}
    (h : bracketedChar? what c = .ok x d) :
    (x = none ∧ c.current? = some ')' ∧ c = d) ∨
      ∃ y, x = some y ∧ c.rest = y :: d.rest ∧ y ≠ '\n' ∧
        y ≠ '\r' := by
  unfold bracketedChar? at h
  rw [current_bind_apply] at h
  cases hHead : c.current? with
  | none =>
      rw [hHead] at h
      cases h
  | some y =>
      rw [hHead] at h
      dsimp only at h
      split_ifs at h with hClose hNewline
      · rcases pure_eq_ok.mp h with ⟨rfl, hPlace⟩
        exact Or.inl ⟨rfl, by rw [hClose], hPlace⟩
      · cases h
      · rw [advance_bind_apply] at h
        rcases pure_eq_ok.mp h with ⟨rfl, rfl⟩
        rw [not_or] at hNewline
        exact
          Or.inr
            ⟨y, rfl, Cursor.rest_of_current hHead,
              hNewline.1, hNewline.2⟩

/- A bracketed character takes one at least. -/
theorem length_lt_of_bracketedChar
    {what : Enclosed}
    (x : Char)
    (c d : Cursor)
    (h : bracketedChar? what c = .ok (some x) d) :
    d.rest.length < c.rest.length := by
  rcases bracketedChar_eq_ok h with
    ⟨hNone, -⟩ | ⟨y, -, hRest, -⟩
  · cases hNone
  · rw [hRest, List.length_cons]
    omega

/- What is in brackets is read as it stands, on one line. -/
theorem bracketed_eq_ok
    {what : Enclosed}
    {chars : List Char}
    (h : bracketed what c = .ok chars d) :
    c.rest = '(' :: chars ++ ')' :: d.rest ∧
      '\n' ∉ chars ∧ '\r' ∉ chars := by
  unfold bracketed at h
  rcases bind_eq_ok.mp h with ⟨u, c', hOpen, h⟩
  rcases expect_eq_ok hOpen with ⟨hHead, rfl⟩
  rcases bind_eq_ok.mp h with ⟨chars', e, hCollect, h⟩
  rw [advance_bind_apply] at h
  rcases pure_eq_ok.mp h with ⟨rfl, rfl⟩
  have hChars :
      (c.advance.rest = chars' ++ e.rest ∧ '\n' ∉ chars' ∧
        '\r' ∉ chars') ∧ e.current? = some ')' := by
    refine
      collect_takes (fun _ _ _ => bracketedChar_eq_ok)
        length_lt_of_bracketedChar
        (fun chars e =>
          c.advance.rest = chars ++ e.rest ∧ '\n' ∉ chars ∧
            '\r' ∉ chars)
        ?_ ⟨rfl, by simp, by simp⟩ hCollect
    rintro chars y c' d ⟨hRest, hNewline, hReturn⟩
      ⟨hMore, hyNewline, hyReturn⟩
    refine ⟨?_, ?_, ?_⟩
    · rw [hRest, hMore, List.append_assoc]
      rfl
    · simp [hNewline, Ne.symm hyNewline]
    · simp [hReturn, Ne.symm hyReturn]
  rcases hChars with ⟨hChars, hClose⟩
  refine ⟨?_, hChars.2⟩
  rw [Cursor.rest_of_current hHead, hChars.1,
    Cursor.rest_of_current hClose]
  rfl

/- Bracketed text pays for all that it shows. -/
theorem pays_bracketed
    {what : Enclosed}
    {chars : List Char}
    (h : bracketed what c = .ok chars d) :
    c.Pays (burden .start ('(' :: chars ++ [')'])) d := by
  have hRest : c.rest = ('(' :: chars ++ [')']) ++ d.rest := by
    rw [(bracketed_eq_ok h).1, List.append_assoc]
    rfl
  have hAfter :
      Trail.start.after ('(' :: chars ++ [')']) = .start := by
    rw [Trail.after_append]
    change (Trail.start.after ('(' :: chars)).next ')' = _
    exact Trail.next_of_not_isEscapeChar rfl
  rw [Cursor.Pays, hRest,
    Trail.burden_append _ ('(' :: chars ++ [')']), hAfter]
  omega

------------------------------------------------------------
-- Words and References
------------------------------------------------------------

/- The words name the numbers they are written for. -/
theorem isCanonical_specialNumber
    {word : String}
    {x : Binary64}
    (h : specialNumber? word = some x) :
    (Number.plain x).IsCanonical := by
  unfold specialNumber? at h
  split at h <;> cases h
  · exact fun _ => rfl
  · exact fun hNaN => absurd hNaN (by decide)
  · exact fun hNaN => absurd hNaN (by decide)

theorem mimeType_eq_ok
    {name : String}
    {mime : MimeType}
    (h : MimeType.ofText name = .ok mime) :
    mime.name = name := by
  unfold MimeType.ofText at h
  split_ifs at h
  split at h
  · cases h
    rfl
  · cases h

/- The letters before a bracket weigh nothing. -/
theorem burden_mimeText (mime : MimeType) :
    burden .start mime.text =
      burden .start ('(' :: mime.name.toList ++ [')']) := by
  have hNone : '\\' ∉ ['B', 'i', 'n'] := by decide
  have hLetters := Trail.after_start hNone
  change
    burden .start
        (['B', 'i', 'n'] ++
          ('(' :: mime.name.toList ++ [')'])) =
      _
  rw [Trail.burden_append, hLetters.1, hLetters.2,
    Nat.zero_add]

/- Which values the words of cells name. -/
theorem givesValue_cellWord
    {word : String}
    {v : Option Value}
    (h : cellWord word c = .ok v d) :
    GivesValue zones .zinc v c d := by
  have hStay : ∀ w : Value,
      w.IsReadable zones .zinc → w.cost = 0 →
        (pure (some w) : Scan (Option Value)) c = .ok v d →
          GivesValue zones .zinc v c d := by
    intro w hw hCost h
    rcases pure_eq_ok.mp h with ⟨rfl, rfl⟩
    refine givesValue_some hw ?_
    rw [hCost]
    exact Cursor.pays_of_passes (.refl c)
  unfold cellWord at h
  split at h
  · rcases pure_eq_ok.mp h with ⟨rfl, rfl⟩
    exact ⟨nofun, Cursor.pays_of_passes (.refl c)⟩
  · exact hStay .marker trivial rfl h
  · exact hStay .remove trivial rfl h
  · exact hStay (.bool true) trivial rfl h
  · exact hStay (.bool false) trivial rfl h
  · exact hStay .na trivial rfl h
  · rcases bind_eq_ok.mp h with ⟨chars, e, hChars, h⟩
    rcases bind_eq_ok.mp h with ⟨mime, e', hMime, h⟩
    rcases pure_eq_ok.mp h with ⟨rfl, rfl⟩
    rcases construct_eq_ok hMime with ⟨hMade, rfl⟩
    have hName := mimeType_eq_ok hMade
    have hLine := (bracketed_eq_ok hChars).2
    have hPays := pays_bracketed hChars
    refine givesValue_some ?_ ?_
    · change mime.IsLegible
      rw [MimeType.IsLegible, hName, String.toList_ofList]
      exact hLine
    · rw [Value.cost, burden_mimeText, hName,
        String.toList_ofList]
      exact hPays
  · rcases bind_eq_ok.mp h with ⟨chars, e, hChars, h⟩
    rcases bind_eq_ok.mp h with ⟨place, e', hPlace, h⟩
    rcases pure_eq_ok.mp h with ⟨rfl, rfl⟩
    rcases construct_eq_ok hPlace with ⟨hMade, rfl⟩
    refine
      givesValue_some (Coordinates.isLegible_of_ofText hMade)
        ?_
    have hPays := pays_bracketed hChars
    unfold Cursor.Pays at hPays ⊢
    change _ + 0 ≤ _
    omega
  · cases h

/- Which values the words of filters name. -/
theorem givesValue_filterWord
    {word : String}
    {v : Option Value}
    (h : filterWord word c = .ok v d) :
    GivesValue zones .filter v c d := by
  unfold filterWord at h
  split at h
  · rcases pure_eq_ok.mp h with ⟨rfl, rfl⟩
    exact
      givesValue_some trivial
        (Cursor.pays_of_passes (.refl c))
  · rcases pure_eq_ok.mp h with ⟨rfl, rfl⟩
    exact
      givesValue_some trivial
        (Cursor.pays_of_passes (.refl c))
  · cases h

/- A number that is legible and canonical is readable. -/
theorem isReadable_number
    {n : Number}
    (hLegible : n.IsLegible)
    (hCanonical : n.IsCanonical) :
    (Value.number n).IsReadable zones dialect := by
  cases dialect <;> exact ⟨hLegible, hCanonical⟩

/-
  The value of a word is paid for, and only that of one with
  brackets costs anything.
-/
theorem givesValue_word
    {x : Char}
    {v : Option Value}
    (hHead : c.current? = some x)
    (hx : isPlain x = true)
    (h : word dialect c = .ok v d) :
    GivesValue zones dialect v c d := by
  unfold word at h
  rw [current_bind_apply, advance_bind_apply] at h
  rcases bind_eq_ok.mp h with ⟨letters, e, hLetters, h⟩
  have hPasses : c.Passes isPlain e :=
    (passes_plain_advance hHead hx).trans
      ((passes_span hLetters).mono (isPlain_of rfl))
  have hMore : GivesValue zones dialect v e d := by
    cases hSpecial :
        specialNumber?
          (String.ofList (c.current?.toList ++ letters)) with
    | some y =>
        rw [hSpecial] at h
        rcases pure_eq_ok.mp h with ⟨rfl, rfl⟩
        exact
          givesValue_some
            (isReadable_number rfl
              (isCanonical_specialNumber hSpecial))
            (Cursor.pays_of_passes (.refl e))
    | none =>
        rw [hSpecial] at h
        cases dialect with
        | zinc => exact givesValue_cellWord h
        | filter => exact givesValue_filterWord h
  exact
    ⟨hMore.readable,
      (Cursor.pays_of_passes hPasses).trans_zero hMore.pays⟩

/- The text of a reference pays nothing. -/
theorem pays_ref
    {x : Char}
    {r : Ref}
    (hHead : c.current? = some x)
    (hx : isPlain x = true)
    (h : ref c = .ok r d) :
    c.Pays 0 d := by
  unfold ref at h
  rw [advance_bind_apply] at h
  rcases bind_eq_ok.mp h with ⟨id, e, hId, h⟩
  rcases bind_eq_ok.mp h with ⟨u, e', hSpace, h⟩
  have hPasses : c.Passes isPlain e' :=
    ((passes_plain_advance hHead hx).trans
      ((passes_span hId).mono (isPlain_of rfl))).trans
        (passes_space hSpace)
  rw [current_bind_apply] at h
  split_ifs at h
  · rcases bind_eq_ok.mp h with ⟨dis, e'', hDis, h⟩
    rcases construct_eq_ok h with ⟨-, rfl⟩
    exact
      (Cursor.pays_of_passes hPasses).trans_zero
        (pays_quoted hDis)
  · rcases construct_eq_ok h with ⟨-, rfl⟩
    exact Cursor.pays_of_passes hPasses

------------------------------------------------------------
-- Times
------------------------------------------------------------

/- Universal time is among the zones of all regions. -/
theorem find?_utc :
    (ZoneTable.builtin.find? "UTC").isSome = true := by
  have hMem : "Etc/UTC" ∈ regionIds :=
    List.mem_of_getElem? (i := 471) (by decide +kernel)
  have hName : (Zone.ofRegion "Etc/UTC").name = "UTC" := by
    decide +kernel
  rw [ZoneTable.find?, List.find?_isSome]
  exact ⟨_, List.mem_map_of_mem hMem, decide_eq_true hName⟩

theorem passes_millis
    {n : Nat}
    (h : millis c = .ok n d) :
    c.Passes isPlain d := by
  unfold millis at h
  rcases bind_eq_ok.mp h with ⟨digits, e, hDigits, h⟩
  rw [current_bind_apply] at h
  split_ifs at h
  · cases h
  · cases h
  · rcases pure_eq_ok.mp h with ⟨-, rfl⟩
    exact (passes_spanAtMost hDigits).mono (isPlain_of rfl)

/- The rest of a time is plain. -/
theorem passes_timeFrom
    {hour : Nat}
    {t : Time}
    (h : timeFrom hour c = .ok t d) :
    c.Passes isPlain d := by
  unfold timeFrom at h
  rcases bind_eq_ok.mp h with ⟨_, c₁, hFirst, h⟩
  rcases bind_eq_ok.mp h with ⟨minute, c₂, hMinute, h⟩
  rcases bind_eq_ok.mp h with ⟨_, c₃, hSecond, h⟩
  rcases bind_eq_ok.mp h with ⟨second, c₄, hSeconds, h⟩
  have hPasses : c.Passes isPlain c₄ :=
    (passes_expect rfl hFirst).trans
      ((passes_twoDigits hMinute).trans
        ((passes_expect rfl hSecond).trans
          (passes_twoDigits hSeconds)))
  rw [current_bind_apply] at h
  split_ifs at h with hDot
  · rw [advance_bind_apply] at h
    rcases bind_eq_ok.mp h with ⟨fraction, c₅, hMillis, h⟩
    rcases construct_eq_ok h with ⟨-, rfl⟩
    exact
      hPasses.trans
        ((passes_plain_advance hDot rfl).trans
          (passes_millis hMillis))
  · rcases construct_eq_ok h with ⟨-, rfl⟩
    exact hPasses

theorem passes_hoursAndMinutes
    {offset : Int}
    (h : hoursAndMinutes c = .ok offset d) :
    c.Passes isPlain d := by
  unfold hoursAndMinutes at h
  rcases bind_eq_ok.mp h with ⟨hours, c₁, hHours, h⟩
  rcases bind_eq_ok.mp h with ⟨_, c₂, hColon, h⟩
  rcases bind_eq_ok.mp h with ⟨minutes, c₃, hMinutes, h⟩
  rcases pure_eq_ok.mp h with ⟨-, rfl⟩
  exact
    (passes_twoDigits hHours).trans
      ((passes_expect rfl hColon).trans
        (passes_twoDigits hMinutes))

/- The offset of a date-time is plain. -/
theorem passes_zoneOffset
    {offset : Int}
    (h : zoneOffset c = .ok offset d) :
    c.Passes isPlain d := by
  unfold zoneOffset at h
  rw [current_bind_apply] at h
  generalize hHead : c.current? = next at h
  split at h
  · rcases pure_eq_ok.mp h with ⟨-, rfl⟩
    exact passes_plain_advance hHead rfl
  · rw [advance_bind_apply] at h
    rcases bind_eq_ok.mp h with ⟨offset', c₁, hOffset, h⟩
    rcases pure_eq_ok.mp h with ⟨-, rfl⟩
    exact
      (passes_plain_advance hHead rfl).trans
        (passes_hoursAndMinutes hOffset)
  · rw [advance_bind_apply] at h
    exact
      (passes_plain_advance hHead rfl).trans
        (passes_hoursAndMinutes h)
  · cases h

/-
  A date-time that is made keeps its zone and its offset.
-/
theorem dateTime_eq_ok
    {date : Date}
    {time : Time}
    {zone : Zone}
    {offset : Int}
    {x : DateTime}
    (h : DateTime.ofParts date time zone offset = .ok x) :
    x.zone = zone ∧ x.offset = offset := by
  unfold DateTime.ofParts at h
  split_ifs at h
  cases h
  exact ⟨rfl, rfl⟩

/- A capital letter after a space starts a zone's name. -/
theorem isZoneName_span
    {name : List Char}
    (hHead : c.current? = some ' ')
    (hNext : c.next?.any isUpper = true)
    (h : span isZoneChar c.advance = .ok name d) :
    isZoneName name = true := by
  have hRun := span_eq_ok h
  rw [isZoneName, hRun.2.1, Bool.and_true]
  rw [Option.any_eq_true] at hNext
  rcases hNext with ⟨x, hx, hUpper⟩
  have hZone : isZoneChar x = true := by
    simp [isZoneChar, isAlpha, hUpper]
  have hRest := Cursor.rest_of_next hHead hx
  rw [Cursor.rest_of_current hHead, List.cons.injEq] at hRest
  cases name with
  | nil =>
      have hStop := hRun.2.2
      rw [← List.nil_append d.rest, ← hRun.1, hRest.2] at hStop
      simp [hZone] at hStop
  | cons y name =>
      have hBoth := hRun.1
      rw [hRest.2, List.cons_append, List.cons.injEq] at hBoth
      rw [← hBoth.1]
      exact hUpper

/- The zone of a date-time that is read is known. -/
theorem zoned_eq_ok
    (hUtc : (zones.find? "UTC").isSome = true)
    {date : Date}
    {time : Time}
    {x : DateTime}
    (h : zoned zones date time c = .ok x d) :
    x.IsLegible zones ∧ c.Passes isPlain d := by
  unfold zoned at h
  rcases bind_eq_ok.mp h with ⟨offset, c₁, hOffset, h⟩
  have hPasses := passes_zoneOffset hOffset
  rw [current_bind_apply, next_bind_apply] at h
  split_ifs at h with hName hZero
  · rw [advance_bind_apply] at h
    rcases bind_eq_ok.mp h with ⟨name, c₂, hSpan, h⟩
    have hAll : c.Passes isPlain c₂ :=
      hPasses.trans
        ((passes_plain_advance hName.1 rfl).trans
          ((passes_span hSpan).mono (isPlain_of rfl)))
    cases hFind : zones.find? (String.ofList name) with
    | none =>
        simp only [hFind] at h
        cases h
    | some zone =>
        simp only [hFind] at h
        rcases construct_eq_ok h with ⟨hMade, rfl⟩
        refine ⟨?_, hAll⟩
        have hZone : zone.name = String.ofList name := by
          have hSome := List.find?_some hFind
          simpa using hSome
        rw [DateTime.IsLegible, (dateTime_eq_ok hMade).1, hZone,
          hFind, String.toList_ofList]
        exact ⟨isZoneName_span hName.1 hName.2 hSpan, rfl⟩
  · cases h
  · rcases construct_eq_ok h with ⟨hMade, rfl⟩
    refine ⟨?_, hPasses⟩
    rw [DateTime.IsLegible, (dateTime_eq_ok hMade).1]
    exact ⟨rfl, hUtc⟩

------------------------------------------------------------
-- Numbers
------------------------------------------------------------

/- The characters that a numeral is made of. -/
def isNumeralChar (x : Char) : Bool :=
  isDigit x || x = '.' || x = 'e' || x = 'E' || x = '-' ||
    x = '+'

/- What a step of the reader of numerals has taken. -/
structure TakesNumeral
    (c d : Cursor)
    (piece : List Char) : Prop where
  passes : c.Passes isPlain d
  length_lt : d.rest.length < c.rest.length
  chars : piece.all isNumeralChar = true

/-
  A piece of a numeral is taken where the reader steps over
  plain characters.
-/
theorem takesNumeral_advance
    {x : Char}
    {piece : List Char}
    (hHead : c.current? = some x)
    (hx : isPlain x = true)
    (hPiece : piece.all isNumeralChar = true) :
    TakesNumeral c c.advance piece := by
  refine ⟨passes_plain_advance hHead hx, ?_, hPiece⟩
  rw [Cursor.rest_of_current hHead, List.length_cons]
  omega

/- The sign or the digit after the mark of an exponent. -/
theorem takesNumeral_exponent
    {x y : Char}
    (hHead : c.current? = some x)
    (hNext : c.next? = some y)
    (hx : x = 'e' ∨ x = 'E')
    (hy : y = '-' ∨ y = '+' ∨ isDigit y = true) :
    TakesNumeral c c.advance.advance [x, y] := by
  have hRest := Cursor.rest_of_next hHead hNext
  have hPlainX : isPlain x = true := by
    rcases hx with rfl | rfl <;> rfl
  have hPlainY : isPlain y = true := by
    rcases hy with rfl | rfl | hy
    · rfl
    · rfl
    · exact isPlain_of rfl y hy
  refine ⟨⟨[x, y], hRest, ?_⟩, ?_, ?_⟩
  · simp [hPlainX, hPlainY]
  · rw [hRest, List.length_cons, List.length_cons]
    omega
  · have hNumeralX : isNumeralChar x = true := by
      rcases hx with rfl | rfl <;> rfl
    have hNumeralY : isNumeralChar y = true := by
      rcases hy with rfl | rfl | hy
      · rfl
      · rfl
      · simp [isNumeralChar, hy]
    simp [hNumeralX, hNumeralY]

/-
  The reader of numerals takes a piece, or stops before a
  character that is none.
-/
theorem numeralPiece_eq_ok
    {p : Option (List Char)}
    (h : numeralPiece? c = .ok p d) :
    (p = none ∧ c.current? ≠ some '_' ∧ c = d) ∨
      ∃ piece, p = some piece ∧ TakesNumeral c d piece := by
  unfold numeralPiece? at h
  rw [current_bind_apply] at h
  cases hHead : c.current? with
  | none =>
      rw [hHead] at h
      rcases pure_eq_ok.mp h with ⟨rfl, rfl⟩
      exact Or.inl ⟨rfl, nofun, rfl⟩
  | some x =>
      rw [hHead] at h
      dsimp only at h
      split_ifs at h with hDigit hUnderscore
      · rw [advance_bind_apply] at h
        rcases pure_eq_ok.mp h with ⟨rfl, rfl⟩
        refine Or.inr ⟨_, rfl, takesNumeral_advance hHead ?_ ?_⟩
        · rcases hDigit with hDigit | rfl
          · exact isPlain_of rfl x hDigit
          · rfl
        · rcases hDigit with hDigit | rfl
          · simp [isNumeralChar, hDigit]
          · rfl
      · subst hUnderscore
        rw [advance_bind_apply] at h
        rcases pure_eq_ok.mp h with ⟨rfl, rfl⟩
        exact
          Or.inr
            ⟨_, rfl, takesNumeral_advance hHead rfl rfl⟩
      · rw [next_bind_apply] at h
        split_ifs at h with hExponent
        · rw [advance_bind_apply, current_bind_apply,
            advance_bind_apply] at h
          rcases pure_eq_ok.mp h with ⟨rfl, rfl⟩
          have hAny := hExponent.2
          rw [Option.any_eq_true] at hAny
          rcases hAny with ⟨y, hNext, hy⟩
          refine Or.inr ⟨_, rfl, ?_⟩
          rw [Cursor.current_advance, hNext]
          refine takesNumeral_exponent hHead hNext hExponent.1 ?_
          simpa [or_assoc] using hy
        · rcases pure_eq_ok.mp h with ⟨rfl, rfl⟩
          refine Or.inl ⟨rfl, ?_, rfl⟩
          rintro hMark
          cases hMark
          exact hUnderscore rfl

/- A piece of a numeral takes a character. -/
theorem length_lt_of_numeralPiece
    (piece : List Char)
    (c d : Cursor)
    (h : numeralPiece? c = .ok (some piece) d) :
    d.rest.length < c.rest.length := by
  rcases numeralPiece_eq_ok h with
    ⟨hNone, -⟩ | ⟨_, -, hTakes⟩
  · cases hNone
  · exact hTakes.length_lt

/- The reader of numerals stops before no underscore. -/
theorem numeral_eq_ok
    {x : Char}
    {digits : List Char}
    (hHead : c.current? = some x)
    (hx : isNumeralChar x = true)
    (h : numeral c = .ok digits d) :
    c.Passes isPlain d ∧ d.current? ≠ some '_' ∧
      digits.all isNumeralChar = true := by
  unfold numeral at h
  rw [current_bind_apply, advance_bind_apply] at h
  rcases bind_eq_ok.mp h with ⟨pieces, e, hCollect, h⟩
  rcases pure_eq_ok.mp h with ⟨rfl, rfl⟩
  have hPieces :
      (c.Passes isPlain e ∧
        pieces.flatten.all isNumeralChar = true) ∧
        e.current? ≠ some '_' := by
    refine
      collect_takes (fun _ _ _ => numeralPiece_eq_ok)
        length_lt_of_numeralPiece
        (fun pieces e =>
          c.Passes isPlain e ∧
            pieces.flatten.all isNumeralChar = true)
        ?_ ⟨?_, rfl⟩ hCollect
    · rintro pieces piece c' d ⟨hPasses, hAll⟩ hTakes
      refine ⟨hPasses.trans hTakes.passes, ?_⟩
      rw [List.flatten_append, List.all_append, hAll,
        List.flatten_singleton, hTakes.chars]
      rfl
    · exact passes_plain_advance hHead (isPlain_of rfl x hx)
  rcases hPieces with ⟨hPieces, hStop⟩
  refine ⟨hPieces.1, hStop, ?_⟩
  rw [hHead]
  simp [hx, hPieces.2]

/- A numeral has no `n` in it. -/
theorem toLower_of_isNumeralChar
    {x : Char}
    (hx : isNumeralChar x = true) :
    x.toLower ≠ 'n' := by
  simp only [isNumeralChar, Bool.or_eq_true,
    decide_eq_true_eq] at hx
  rcases hx with ((((hDigit | rfl) | rfl) | rfl) | rfl) | rfl
  · rw [NumeralParts.toLower_of_isDigit hDigit]
    rintro rfl
    cases hDigit
  all_goals decide

theorem all_splitSign
    {p : Char → Bool}
    {cs : List Char}
    (hcs : cs.all p = true) :
    (Numeral.splitSign cs).2.all p = true := by
  unfold Numeral.splitSign
  split
  · rw [List.all_cons, Bool.and_eq_true] at hcs
    exact hcs.2
  · rw [List.all_cons, Bool.and_eq_true] at hcs
    exact hcs.2
  · exact hcs

/- A numeral is never read as NaN. -/
theorem isNaN_ofDecimal
    (negative : Bool)
    (digits : Nat)
    (exponent : Int) :
    (Binary64.ofDecimal negative digits exponent).isNaN =
      false := by
  have hLe :=
    Binary64.decimalMagnitude_le_infinite digits exponent
  have hLess :
      Binary64.infiniteMagnitude < Binary64.signWeight := by
    decide
  rw [Binary64.isNaN, Binary64.ofDecimal,
    Binary64.magnitude_ofMagnitude _ (by omega)]
  exact decide_eq_false (by omega)

/- A numeral that is read names a number. -/
theorem isNaN_of_ofNumeral
    {digits : List Char}
    {x : Binary64}
    (hDigits : digits.all isNumeralChar = true)
    (h : Binary64.ofNumeral? digits = some x) :
    x.isNaN = false := by
  have hBody := all_splitSign hDigits
  unfold Binary64.ofNumeral? at h
  dsimp only at h
  split_ifs at h with hInfinite hNan
  · cases h
    cases (Numeral.splitSign digits).1 <;> rfl
  · cases hText : (Numeral.splitSign digits).2 with
    | nil =>
        rw [hText] at hNan
        cases hNan
    | cons y more =>
        rw [hText] at hNan hBody
        rw [List.all_cons, Bool.and_eq_true] at hBody
        exact
          absurd (List.cons.inj hNan).1
            (toLower_of_isNumeralChar hBody.1)
  · unfold Numeral.decimal? at h
    dsimp only at h
    split_ifs at h
    rcases Option.map_eq_some_iff.mp h with ⟨e, -, rfl⟩
    exact isNaN_ofDecimal _ _ _

/- The number is given with the unit that follows. -/
theorem givesPlain_measured
    {digits : List Char}
    {v : Value}
    (hStop : c.current? ≠ some '_')
    (hDigits : digits.all isNumeralChar = true)
    (h : measured digits c = .ok v d) :
    GivesPlain zones dialect v c d := by
  unfold measured at h
  cases hNumber : Binary64.ofNumeral? digits with
  | none =>
      rw [hNumber] at h
      cases h
  | some x =>
      rw [hNumber] at h
      have hNaN := isNaN_of_ofNumeral hDigits hNumber
      have hCanonical (unit : Option UnitName) :
          (Number.mk x unit).IsCanonical := by
        intro hBad
        rw [hNaN] at hBad
        cases hBad
      rcases bind_eq_ok.mp h with ⟨unit, e, hUnit, h⟩
      have hPasses : c.Passes isPlain e :=
        (passes_span hUnit).mono (isPlain_of rfl)
      split_ifs at h with hEmpty
      · rcases pure_eq_ok.mp h with ⟨rfl, rfl⟩
        exact
          ⟨isReadable_number rfl (hCanonical none), hPasses,
            rfl⟩
      · rcases bind_eq_ok.mp h with ⟨n, e', hMade, h⟩
        rcases pure_eq_ok.mp h with ⟨rfl, rfl⟩
        rcases construct_eq_ok hMade with ⟨hMade, rfl⟩
        unfold Number.withUnit UnitName.ofText at hMade
        split_ifs at hMade with hValid
        · cases hMade
          refine
            ⟨isReadable_number ?_ (hCanonical _), hPasses,
              rfl⟩
          have hRun := (span_eq_ok hUnit).1
          cases unit with
          | nil => exact absurd rfl hEmpty
          | cons y more =>
              rw [Cursor.current?, hRun] at hStop
              simpa [Number.IsLegible] using hStop
        · cases hMade

------------------------------------------------------------
-- Dates and Values
------------------------------------------------------------

/- The rest of a date is plain. -/
theorem passes_dateFrom
    {year : List Char}
    {date : Date}
    (hHead : c.current? = some '-')
    (h : dateFrom year c = .ok date d) :
    c.Passes isPlain d := by
  unfold dateFrom at h
  cases hYear : int32OfNumeral? year with
  | none =>
      rw [hYear] at h
      cases h
  | some y =>
      rw [hYear] at h
      dsimp only at h
      rw [advance_bind_apply] at h
      rcases bind_eq_ok.mp h with ⟨month, c₁, hMonth, h⟩
      rcases bind_eq_ok.mp h with ⟨_, c₂, hDash, h⟩
      rcases bind_eq_ok.mp h with ⟨day, c₃, hDay, h⟩
      rcases construct_eq_ok h with ⟨-, rfl⟩
      exact
        (passes_plain_advance hHead rfl).trans
          ((passes_twoDigits hMonth).trans
            ((passes_expect rfl hDash).trans
              (passes_twoDigits hDay)))

theorem isReadable_date (date : Date) :
    (Value.date date).IsReadable zones dialect := by
  cases dialect <;> trivial

/- A date-time with a legible zone is readable. -/
theorem isReadable_dateTime
    {x : DateTime}
    (hx : x.IsLegible zones) :
    (Value.dateTime x).IsReadable zones dialect := by
  cases dialect <;> exact hx

theorem isReadable_time (t : Time) :
    (Value.time t).IsReadable zones dialect := by
  cases dialect <;> trivial

/- A date, or a date-time in a known zone, is given. -/
theorem givesPlain_dated
    (hUtc : (zones.find? "UTC").isSome = true)
    {year : List Char}
    {v : Value}
    (hHead : c.current? = some '-')
    (h : dated zones year c = .ok v d) :
    GivesPlain zones dialect v c d := by
  unfold dated at h
  rcases bind_eq_ok.mp h with ⟨date, c₁, hDate, h⟩
  have hPasses := passes_dateFrom hHead hDate
  rw [current_bind_apply] at h
  split_ifs at h with hTime
  · rw [advance_bind_apply] at h
    rcases bind_eq_ok.mp h with ⟨hour, c₂, hHour, h⟩
    rcases bind_eq_ok.mp h with ⟨time, c₃, hFrom, h⟩
    rcases bind_eq_ok.mp h with ⟨x, c₄, hZoned, h⟩
    rcases pure_eq_ok.mp h with ⟨rfl, rfl⟩
    rcases zoned_eq_ok hUtc hZoned with ⟨hx, hPassesZone⟩
    exact
      ⟨isReadable_dateTime hx,
        hPasses.trans
          ((passes_plain_advance hTime rfl).trans
            ((passes_twoDigits hHour).trans
              ((passes_timeFrom hFrom).trans hPassesZone))),
        rfl⟩
  · rcases pure_eq_ok.mp h with ⟨rfl, rfl⟩
    exact ⟨isReadable_date date, hPasses, rfl⟩

/- A time is given by plain characters. -/
theorem givesPlain_timed
    {hour : List Char}
    {v : Value}
    (h : timed hour c = .ok v d) :
    GivesPlain zones dialect v c d := by
  unfold timed at h
  split_ifs at h
  · rcases bind_eq_ok.mp h with ⟨t, c₁, hTime, h⟩
    rcases pure_eq_ok.mp h with ⟨rfl, rfl⟩
    exact ⟨isReadable_time t, passes_timeFrom hTime, rfl⟩
  · cases h

/- What starts like a number is given without backslashes. -/
theorem givesPlain_numeric
    (hUtc : (zones.find? "UTC").isSome = true)
    {x : Char}
    {v : Value}
    (hHead : c.current? = some x)
    (hx : isNumeralChar x = true)
    (h : numeric zones c = .ok v d) :
    GivesPlain zones dialect v c d := by
  unfold numeric at h
  rcases bind_eq_ok.mp h with ⟨digits, e, hNumeral, h⟩
  rcases numeral_eq_ok hHead hx hNumeral with
    ⟨hPasses, hStop, hDigits⟩
  rw [current_bind_apply] at h
  have hMore : GivesPlain zones dialect v e d := by
    generalize hNext : e.current? = next at h
    split at h
    · exact givesPlain_dated hUtc hNext h
    · exact givesPlain_timed h
    · exact givesPlain_measured hStop hDigits h
  exact
    ⟨hMore.readable, hPasses.trans hMore.passes,
      hMore.cost_eq_zero⟩

theorem isReadable_str (text : String) :
    (Value.str text).IsReadable zones dialect := by
  cases dialect <;> trivial

/- Every URI is readable. -/
theorem isReadable_uri (u : Uri) :
    (Value.uri u).IsReadable zones dialect := by
  cases dialect <;> trivial

/- Every reference is readable. -/
theorem isReadable_ref (r : Ref) :
    (Value.ref r).IsReadable zones dialect := by
  cases dialect <;> trivial

/-
  Each value that is given can be read from its own text, if
  that is legible, and is paid for by the text it was in.
-/
theorem givesValue_value
    (hUtc : (zones.find? "UTC").isSome = true)
    {v : Option Value}
    (h : value zones dialect c = .ok v d) :
    GivesValue zones dialect v c d := by
  unfold value at h
  rw [current_bind_apply] at h
  cases hHead : c.current? with
  | none =>
      rw [hHead] at h
      cases h
  | some x =>
      rw [hHead] at h
      dsimp only at h
      rw [next_bind_apply] at h
      split_ifs at h with hDigit hAlpha hAt hQuote hTick hWord
        hMinus
      · rcases bind_eq_ok.mp h with ⟨w, e, hNumeric, h⟩
        rcases pure_eq_ok.mp h with ⟨rfl, rfl⟩
        refine
          (givesPlain_numeric hUtc hHead ?_
            hNumeric).givesValue
        simp [isNumeralChar, hDigit]
      · exact
          givesValue_word hHead (isPlain_of rfl x hAlpha) h
      · subst hAt
        rcases bind_eq_ok.mp h with ⟨r, e, hRef, h⟩
        rcases pure_eq_ok.mp h with ⟨rfl, rfl⟩
        exact
          givesValue_some (isReadable_ref r)
            (pays_ref hHead rfl hRef)
      · subst hQuote
        rcases bind_eq_ok.mp h with ⟨text, e, hText, h⟩
        rcases pure_eq_ok.mp h with ⟨rfl, rfl⟩
        exact
          givesValue_some (isReadable_str text)
            (pays_quoted hText)
      · subst hTick
        rcases bind_eq_ok.mp h with ⟨u, e, hUri, h⟩
        rcases pure_eq_ok.mp h with ⟨rfl, rfl⟩
        exact
          givesValue_some (isReadable_uri u)
            (burden_uri hHead hUri)
      · refine givesValue_word hHead ?_ h
        rw [hWord.1]
        rfl
      · rcases bind_eq_ok.mp h with ⟨w, e, hNumeric, h⟩
        rcases pure_eq_ok.mp h with ⟨rfl, rfl⟩
        refine
          (givesPlain_numeric hUtc hHead ?_
            hNumeric).givesValue
        rw [hMinus.1]
        rfl
      · cases h

end Zinc

end Haystack
