import Haystack.Text.Scan
import Mathlib.Data.List.Basic

/-
  This file defines what it is for a reader to read a text:
  wherever the text stands, the reader takes all of it, stops
  right behind it and gives the value that it stands for.

  Key definitions include:
    * `Scan.Reads`
    * `Scan.ReadsLoosely`
    * `Scan.Iterates`
    * `Scan.ReadsOn`
    * `Scan.CollectsOn`

  Main declarations:
    * `Scan.Reads.bind`
    * `Scan.Reads.readAll_eq`
    * `Scan.Iterates.iterate_eq`
    * `Scan.reads_collect`
-/

namespace Haystack

namespace Scan

variable {α β σ : Type}

------------------------------------------------------------
-- Reading a Text
------------------------------------------------------------

/-
  Where `taken` stands before `rest`, the reader takes it,
  stops before `rest` and gives `a`.
-/
def Reads
    (scan : Scan α)
    (taken : List Char)
    (a : α)
    (rest : List Char) : Prop :=
  ∀ line,
    scan ⟨taken ++ rest, line⟩ =
      .ok a ⟨rest, line + taken.count '\n'⟩

/- One reader after another, from a given place. -/
theorem bind_apply
    (scan : Scan α)
    (next : α → Scan β)
    (c : Cursor) :
    (scan >>= next) c =
      match scan c with
      | .ok a c => next a c
      | .error e c => .error e c := by
  change EStateM.bind scan next c = _
  unfold EStateM.bind
  cases scan c <;> rfl

/- What a reader takes and gives is settled by the text. -/
theorem Reads.unique
    {scan : Scan α}
    {taken taken' rest rest' : List Char}
    {a b : α}
    (hScan : Reads scan taken a rest)
    (hScan' : Reads scan taken' b rest')
    (h : taken ++ rest = taken' ++ rest') :
    a = b ∧ taken = taken' ∧ rest = rest' := by
  have hFirst := hScan 0
  rw [h, hScan' 0, EStateM.Result.ok.injEq,
    Cursor.mk.injEq] at hFirst
  rcases hFirst with ⟨rfl, rfl, -⟩
  exact ⟨rfl, List.append_cancel_right h, rfl⟩

/- Nothing is read for a value that is given at once. -/
theorem reads_pure
    (a : α)
    (rest : List Char) :
    Reads (pure a : Scan α) [] a rest := by
  intro line
  rfl

/- Readers in a row read their texts in a row. -/
theorem Reads.bind
    {scan : Scan α}
    {next : α → Scan β}
    {first second rest : List Char}
    {a : α}
    {b : β}
    (hFirst : Reads scan first a (second ++ rest))
    (hSecond : Reads (next a) second b rest) :
    Reads (scan >>= next) (first ++ second) b rest := by
  intro line
  have hEnd := hSecond (line + first.count '\n')
  rw [bind_apply, List.append_assoc, hFirst line]
  simp only [hEnd, List.count_append, Nat.add_assoc]

/- A reader after which the next one stays in place. -/
theorem Reads.bind_last
    {scan : Scan α}
    {next : α → Scan β}
    {taken rest : List Char}
    {a : α}
    {b : β}
    (hScan : Reads scan taken a rest)
    (hNext : Reads (next a) [] b rest) :
    Reads (scan >>= next) taken b rest := by
  have hBind : Reads (scan >>= next) (taken ++ []) b rest :=
    Reads.bind hScan hNext
  rwa [List.append_nil] at hBind

/- The line may be asked for, and does not matter. -/
theorem reads_line_bind
    {next : Nat → Scan β}
    {taken rest : List Char}
    {b : β}
    (hNext : ∀ line, Reads (next line) taken b rest) :
    Reads (line >>= next) taken b rest :=
  fun line => hNext line line

/- What could be made is given, with nothing read. -/
theorem reads_constructAt
    (line : Nat)
    (a : α)
    (rest : List Char) :
    Reads (constructAt line (.ok a)) [] a rest := by
  intro line
  rfl

/- A reader whose answer is changed afterwards. -/
theorem Reads.bind_pure
    {scan : Scan α}
    {taken rest : List Char}
    {a : α}
    (hScan : Reads scan taken a rest)
    (f : α → β) :
    Reads (scan >>= fun a => pure (f a)) taken (f a) rest :=
  hScan.bind_last (reads_pure (f a) rest)

/- A reader whose answer does not matter. -/
theorem Reads.discard
    {scan : Scan α}
    {taken rest : List Char}
    {a : α}
    (hScan : Reads scan taken a rest) :
    Reads (discard scan) taken () rest := by
  intro line
  change EStateM.map (fun _ => ()) scan _ = _
  unfold EStateM.map
  rw [hScan line]

/- A reader that stays in place before another one. -/
theorem Reads.bind_of_nil
    {scan : Scan α}
    {next : α → Scan β}
    {taken rest : List Char}
    {a : α}
    {b : β}
    (hScan : Reads scan [] a (taken ++ rest))
    (hNext : Reads (next a) taken b rest) :
    Reads (scan >>= next) taken b rest :=
  Reads.bind hScan hNext

@[simp]
theorem reads_pure_bind
    (next : α → Scan β)
    (a : α)
    (taken rest : List Char)
    (b : β) :
    Reads (pure a >>= next) taken b rest ↔
      Reads (next a) taken b rest := by
  rw [pure_bind]

/- The character to read may be looked at. -/
@[simp]
theorem reads_current_bind
    (next : Option Char → Scan β)
    (taken rest : List Char)
    (b : β) :
    Reads (current? >>= next) taken b rest ↔
      Reads (next (taken ++ rest).head?) taken b rest :=
  Iff.rfl

/- So may the one after it. -/
@[simp]
theorem reads_next_bind
    (next : Option Char → Scan β)
    (taken rest : List Char)
    (b : β) :
    Reads (next? >>= next) taken b rest ↔
      Reads (next (taken ++ rest).tail.head?) taken b rest :=
  Iff.rfl

------------------------------------------------------------
-- Characters and Runs
------------------------------------------------------------

/- One step takes one character. -/
theorem reads_advance
    (x : Char)
    (rest : List Char) :
    Reads advance [x] () rest := by
  intro line
  rfl

/- One more character may stand before what is read. -/
theorem Reads.advance_bind
    {next : Unit → Scan β}
    {taken rest : List Char}
    {b : β}
    (hNext : Reads (next ()) taken b rest)
    (x : Char) :
    Reads (advance >>= next) (x :: taken) b rest :=
  Reads.bind (reads_advance x (taken ++ rest)) hNext

/- The expected character is taken. -/
theorem reads_expect
    (x : Char)
    (what : Expected)
    (rest : List Char) :
    Reads (expect x what) [x] () rest := by
  unfold expect
  rw [reads_current_bind]
  simpa using reads_advance x rest

/- It may be expected before what is read next. -/
theorem Reads.expect_bind
    {next : Unit → Scan β}
    {taken rest : List Char}
    {b : β}
    (hNext : Reads (next ()) taken b rest)
    (x : Char)
    (what : Expected) :
    Reads (expect x what >>= next) (x :: taken) b rest :=
  Reads.bind (reads_expect x what (taken ++ rest)) hNext

/- A run ends where a character of another kind comes. -/
theorem takeWhile_append_of_head
    {p : Char → Bool}
    {run rest : List Char}
    (hRun : run.all p = true)
    (hRest : rest.head?.all (fun c => !p c) = true) :
    (run ++ rest).takeWhile p = run := by
  have hNone : rest.takeWhile p = [] := by
    cases rest with
    | nil => rfl
    | cons c rest => simp_all
  rw [List.takeWhile_append_of_pos (by simpa using hRun),
    hNone, List.append_nil]

/- What is left over starts where the run ends. -/
theorem dropWhile_append_of_head
    {p : Char → Bool}
    {run rest : List Char}
    (hRun : run.all p = true)
    (hRest : rest.head?.all (fun c => !p c) = true) :
    (run ++ rest).dropWhile p = rest := by
  have hAll :=
    List.takeWhile_append_dropWhile
      (p := p) (l := run ++ rest)
  rw [takeWhile_append_of_head hRun hRest] at hAll
  exact List.append_cancel_left hAll

/- A run is read up to a character of another kind. -/
theorem reads_span
    {p : Char → Bool}
    {run rest : List Char}
    (hRun : run.all p = true)
    (hRest : rest.head?.all (fun c => !p c) = true) :
    Reads (span p) run run rest := by
  intro line
  simp [span, takeWhile_append_of_head hRun hRest,
    Cursor.skip]

/- Spaces are passed up to another character. -/
theorem reads_skipSpace
    {blank rest : List Char}
    (hBlank : blank.all isSpace = true)
    (hRest : rest.head?.all (fun c => !isSpace c) = true) :
    Reads skipSpace blank () rest := by
  intro line
  change EStateM.Result.ok () _ = _
  simp [takeWhile_append_of_head hBlank hRest, Cursor.skip]

/- Before anything but a space nothing is skipped. -/
theorem reads_skipSpace_nil
    {rest : List Char}
    (hRest : rest.head?.all (fun c => !isSpace c) = true) :
    Reads skipSpace [] () rest :=
  reads_skipSpace rfl hRest

/- A reader that skips spaces first may find any of them. -/
theorem Reads.after_blank
    {next : Unit → Scan β}
    {blank taken rest : List Char}
    {b : β}
    (hReads : Reads (skipSpace >>= next) taken b rest)
    (hBlank : blank.all isSpace = true)
    (hHead : (taken ++ rest).head?.all
      (fun c => !isSpace c) = true) :
    Reads (skipSpace >>= next) (blank ++ taken) b rest := by
  refine Reads.bind (reads_skipSpace hBlank hHead) ?_
  intro line
  have hSkip := reads_skipSpace_nil hHead line
  have hLine := hReads line
  rw [List.nil_append] at hSkip
  rwa [bind_apply, hSkip] at hLine

/- At the end of a text there is nothing left to read. -/
theorem reads_finish : Reads finish [] () [] := by
  intro line
  rfl

/- A reader that takes a whole text gives its answer. -/
theorem Reads.readAll_eq
    {scan : Scan α}
    {cs : List Char}
    {a : α}
    (hScan : Reads scan cs a []) :
    readAll scan (String.ofList cs) = .ok a := by
  have hAll := hScan 1
  rw [List.append_nil] at hAll
  unfold readAll Cursor.ofText
  rw [String.toList_ofList, hAll]

------------------------------------------------------------
-- Readers that May Pass Spaces
------------------------------------------------------------

/-
  The reader takes the text, and perhaps some of the spaces
  behind it.
-/
def ReadsLoosely
    (scan : Scan α)
    (taken : List Char)
    (a : α)
    (rest : List Char) : Prop :=
  ∃ blank behind,
    rest = blank ++ behind ∧ blank.all isSpace = true ∧
      Reads scan (taken ++ blank) a behind

/-
  A reader that stops where it should leaves no spaces out.
-/
theorem Reads.loosely
    {scan : Scan α}
    {taken rest : List Char}
    {a : α}
    (hScan : Reads scan taken a rest) :
    ReadsLoosely scan taken a rest :=
  ⟨[], rest, rfl, rfl, by rwa [List.append_nil]⟩

/- What is read may be changed afterwards. -/
theorem ReadsLoosely.bind_pure
    {scan : Scan α}
    {taken rest : List Char}
    {a : α}
    (hScan : ReadsLoosely scan taken a rest)
    (f : α → β) :
    ReadsLoosely (scan >>= fun a => pure (f a)) taken (f a)
      rest := by
  rcases hScan with ⟨blank, behind, hRest, hBlank, hReads⟩
  exact ⟨blank, behind, hRest, hBlank, hReads.bind_pure f⟩

/- At the end of a text there are no spaces to pass. -/
theorem ReadsLoosely.of_nil
    {scan : Scan α}
    {taken : List Char}
    {a : α}
    (hScan : ReadsLoosely scan taken a []) :
    Reads scan taken a [] := by
  rcases hScan with ⟨blank, behind, hRest, _, hReads⟩
  rcases List.append_eq_nil_iff.mp hRest.symm with
    ⟨rfl, rfl⟩
  rwa [List.append_nil] at hReads

/- Two ways to start with spaces, one of them with all. -/
theorem exists_blank_of_append_eq
    {blank rest some behind : List Char}
    (hRest : rest.head?.all (fun c => !isSpace c) = true)
    (hSome : some.all isSpace = true)
    (hEq : blank ++ rest = some ++ behind) :
    ∃ more, blank = some ++ more ∧ behind = more ++ rest := by
  rcases List.append_eq_append_iff.mp hEq with
    ⟨more, hMore, hBehind⟩ | ⟨more, hMore, hBehind⟩
  · cases more with
    | nil =>
        refine ⟨[], ?_, ?_⟩
        · simpa using hMore.symm
        · simpa using hBehind.symm
    | cons c more =>
        have hSpace : isSpace c = true := by
          simp_all
        simp [hBehind, hSpace] at hRest
  · exact ⟨more, hMore, hBehind⟩

/-
  If spaces are skipped next, it does not matter how many of
  them the reader has passed.
-/
theorem ReadsLoosely.bind_skipSpace
    {scan : Scan α}
    {next : α → Scan β}
    {taken blank second rest : List Char}
    {a : α}
    {b : β}
    (hScan : ReadsLoosely scan taken a
      (blank ++ (second ++ rest)))
    (hBlank : blank.all isSpace = true)
    (hHead : (second ++ rest).head?.all
      (fun c => !isSpace c) = true)
    (hNext : Reads (next a) second b rest) :
    Reads
      (scan >>= fun a => skipSpace >>= fun _ => next a)
      (taken ++ (blank ++ second)) b rest := by
  rcases hScan with ⟨passed, behind, hEq, hPassed, hReads⟩
  rcases exists_blank_of_append_eq hHead hPassed hEq with
    ⟨more, rfl, rfl⟩
  have hMore : more.all isSpace = true := by
    rw [List.all_append, Bool.and_eq_true] at hBlank
    exact hBlank.2
  have hSkip :
      Reads (skipSpace >>= fun _ => next a) (more ++ second)
        b rest :=
    Reads.bind (reads_skipSpace hMore hHead) hNext
  have hAll :
      Reads
        (scan >>= fun a => skipSpace >>= fun _ => next a)
        ((taken ++ passed) ++ (more ++ second)) b rest := by
    refine Reads.bind ?_ hSkip
    rwa [List.append_assoc]
  simpa [List.append_assoc] using hAll

------------------------------------------------------------
-- Repetition
------------------------------------------------------------

/-
  From a state and a place, steps that each read something
  lead to a state and a place where there is nothing new.
-/
inductive Iterates
    (step : σ → Scan (Option σ)) :
    σ → Cursor → σ → Cursor → Prop where
| stop
    {s : σ}
    {c c' : Cursor}
    (hStop : step s c = .ok none c') :
    Iterates step s c s c'
| next
    {s s' t : σ}
    {c c' d : Cursor}
    (hStep : step s c = .ok (some s') c')
    (hShorter : c'.rest.length < c.rest.length)
    (hRest : Iterates step s' c' t d) :
    Iterates step s c t d

/- The bound is long enough for steps that read something. -/
theorem Iterates.iterateWithin_eq
    {step : σ → Scan (Option σ)}
    {s t : σ}
    {c d : Cursor}
    (hIterates : Iterates step s c t d)
    (bound : List Char)
    (hBound : c.rest.length ≤ bound.length) :
    iterateWithin step bound s c = .ok t d := by
  induction hIterates generalizing bound with
  | stop hStop =>
      cases bound <;> simp [iterateWithin, hStop]
  | next hStep hShorter _ ih =>
      cases bound with
      | nil =>
          simp only [List.length_nil] at hBound
          omega
      | cons x bound =>
          rw [List.length_cons] at hBound
          simp only [iterateWithin, hStep]
          exact ih bound (by omega)

/- Steps that read something are repeated to the end. -/
theorem Iterates.iterate_eq
    {step : σ → Scan (Option σ)}
    {s t : σ}
    {c d : Cursor}
    (hIterates : Iterates step s c t d) :
    iterate step s c = .ok t d :=
  hIterates.iterateWithin_eq c.rest (Nat.le_refl _)

/-
  From the state `s`, steps that each read something read
  `taken` before `rest`, up to the state `t`.
-/
def ReadsOn
    (step : σ → Scan (Option σ))
    (s : σ)
    (taken : List Char)
    (t : σ)
    (rest : List Char) : Prop :=
  ∀ line,
    Iterates step s ⟨taken ++ rest, line⟩ t
      ⟨rest, line + taken.count '\n'⟩

/- The last step gives nothing new. -/
theorem ReadsOn.stop
    {step : σ → Scan (Option σ)}
    {s : σ}
    {taken rest : List Char}
    (hStop : Reads (step s) taken none rest) :
    ReadsOn step s taken s rest := by
  intro line
  exact .stop (hStop line)

/- A step that reads something may come first. -/
theorem ReadsOn.next
    {step : σ → Scan (Option σ)}
    {s s' t : σ}
    {first second rest : List Char}
    (hStep : Reads (step s) first (some s') (second ++ rest))
    (hFirst : first ≠ [])
    (hRest : ReadsOn step s' second t rest) :
    ReadsOn step s (first ++ second) t rest := by
  intro line
  have hEnd := hRest (line + first.count '\n')
  rw [Nat.add_assoc, ← List.count_append] at hEnd
  have hShorter := List.length_pos_of_ne_nil hFirst
  rw [List.append_assoc]
  refine .next (hStep line) ?_ hEnd
  simp only [List.length_append]
  omega

/- Steps one after the other are read by the loop. -/
theorem ReadsOn.reads_iterate
    {step : σ → Scan (Option σ)}
    {s t : σ}
    {taken rest : List Char}
    (hSteps : ReadsOn step s taken t rest) :
    Reads (iterate step s) taken t rest := by
  intro line
  exact (hSteps line).iterate_eq

/-
  A step is repeated for each item, in the state that the
  items before it lead to, and gives nothing new at the end.
-/
theorem reads_iterate
    {ι : Type}
    {step : σ → Scan (Option σ)}
    {stop rest : List Char}
    (follow : σ → ι → σ)
    (text : ι → List Char)
    (items : List ι)
    (s : σ)
    (hStep : ∀ before x after,
      items = before ++ x :: after →
        Reads (step (before.foldl follow s)) (text x)
          (some (follow (before.foldl follow s) x))
          (after.flatMap text ++ (stop ++ rest)))
    (hText : ∀ x ∈ items, text x ≠ [])
    (hStop : Reads (step (items.foldl follow s)) stop none
      rest) :
    Reads (iterate step s) (items.flatMap text ++ stop)
      (items.foldl follow s) rest := by
  apply ReadsOn.reads_iterate
  induction items generalizing s with
  | nil => exact .stop hStop
  | cons x items ih =>
      have hFirst := hStep [] x items rfl
      have hRest :=
        ih (follow s x)
          (fun before y after hItems =>
            hStep (x :: before) y after
              (congrArg (x :: ·) hItems))
          (fun y hy => hText y (List.mem_cons_of_mem _ hy))
          hStop
      rw [List.flatMap_cons, List.append_assoc]
      rw [← List.append_assoc] at hFirst
      exact .next hFirst (hText x (List.mem_cons_self ..)) hRest

/-
  Before `rest`, the items that stand in `taken` are read one
  after the other, up to where there is none.
-/
def CollectsOn
    (item? : Scan (Option α))
    (taken : List Char)
    (values : List α)
    (rest : List Char) : Prop :=
  ∀ known,
    ReadsOn
      (fun items => do
        let item ← item?
        return item.map (· :: items))
      known taken (values.reverse ++ known) rest

namespace CollectsOn

variable {item? : Scan (Option α)}
variable {values : List α}

/- No more items come. -/
theorem stop
    {taken rest : List Char}
    (hStop : Reads item? taken none rest) :
    CollectsOn item? taken [] rest :=
  fun _ => .stop (hStop.bind_pure _)

/- One more item may come first. -/
theorem next
    {first second rest : List Char}
    {a : α}
    (hItem : Reads item? first (some a) (second ++ rest))
    (hFirst : first ≠ [])
    (hMore : CollectsOn item? second values rest) :
    CollectsOn item? (first ++ second) (a :: values) rest := by
  intro known
  rw [List.reverse_cons, List.append_assoc]
  exact .next (hItem.bind_pure _) hFirst (hMore (a :: known))

/- All items are read in their order. -/
theorem reads
    {taken rest : List Char}
    (hItems : CollectsOn item? taken values rest) :
    Reads (collect item?) taken values rest := by
  have hReverse :=
    (hItems []).reads_iterate.bind_pure List.reverse
  rwa [List.append_nil, List.reverse_reverse] at hReverse

end CollectsOn

/- Items are collected in the order in which they stand. -/
theorem reads_collect
    {ι : Type}
    {item? : Scan (Option α)}
    {stop rest : List Char}
    (text : ι → List Char)
    (value : ι → α)
    (items : List ι)
    (hItem : ∀ before x after,
      items = before ++ x :: after →
        Reads item? (text x) (some (value x))
          (after.flatMap text ++ (stop ++ rest)))
    (hText : ∀ x ∈ items, text x ≠ [])
    (hStop : Reads item? stop none rest) :
    Reads (collect item?) (items.flatMap text ++ stop)
      (items.map value) rest := by
  apply CollectsOn.reads
  induction items with
  | nil => exact .stop hStop
  | cons x items ih =>
      have hFirst := hItem [] x items rfl
      have hRest :=
        ih
          (fun before y after hItems =>
            hItem (x :: before) y after
              (congrArg (x :: ·) hItems))
          (fun y hy => hText y (List.mem_cons_of_mem _ hy))
      rw [List.flatMap_cons, List.append_assoc]
      rw [← List.append_assoc] at hFirst
      exact .next hFirst (hText x (List.mem_cons_self ..)) hRest

end Scan

end Haystack
