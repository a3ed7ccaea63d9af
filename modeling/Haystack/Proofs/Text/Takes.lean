import Haystack.Proofs.Text.Reads

/-
  This file shows what is known of a reader that has given a
  value: how the readers it consists of have gone, and what
  stands between the places where it started and stopped.

  Key definitions include:
    * `Cursor.Passes`
    * `Scan.Gives`

  Main declarations:
    * `except_mapM_eq_ok_iff`
    * `Scan.bind_eq_ok`
    * `Scan.iterateWithin_eq_ok`
    * `Scan.collect_invariant`
    * `Scan.collect_stops`
    * `Scan.collect_takes`
-/

namespace Haystack

------------------------------------------------------------
-- Makers that Have Given a Value
------------------------------------------------------------

/- A value that is changed could be made before. -/
theorem except_map_eq_ok
    {ε α β : Type}
    {f : α → β}
    {made : Except ε α}
    {b : β} :
    f <$> made = .ok b ↔ ∃ a, made = .ok a ∧ f a = b := by
  cases made with
  | error e => simp [Functor.map, Except.map]
  | ok a => simp [Functor.map, Except.map]

/- Both of two makers in a row have made a value. -/
theorem except_bind_eq_ok
    {ε α β : Type}
    {made : Except ε α}
    {next : α → Except ε β}
    {b : β} :
    made >>= next = .ok b ↔
      ∃ a, made = .ok a ∧ next a = .ok b := by
  cases made with
  | error e => simp [Bind.bind, Except.bind]
  | ok a => simp [Bind.bind, Except.bind]

/- The kind of an error does not matter to a value. -/
theorem orValueError_eq_ok
    {α : Type}
    {made : Except ValueError α}
    {a : α} :
    orValueError made = .ok a ↔ made = .ok a := by
  cases made with
  | error e => simp [orValueError]
  | ok b => simp [orValueError]

/-
  A filter error is all that is added, so what is made
  stays.
-/
theorem orFilterError_eq_ok
    {α : Type}
    {made : Except FilterError α}
    {a : α} :
    orFilterError made = .ok a ↔ made = .ok a := by
  cases made with
  | error e => simp [orFilterError]
  | ok b => simp [orFilterError]

/- Texts of which each is the text of what it gives. -/
theorem except_mapM_eq_ok_iff
    {ε α β : Type}
    {made : α → Except ε β}
    {text : β → α}
    (hMade : ∀ a b, made a = .ok b ↔ a = text b)
    {as : List α}
    {bs : List β} :
    as.mapM made = .ok bs ↔ as = bs.map text := by
  induction as generalizing bs with
  | nil =>
      rw [List.mapM_nil]
      cases bs <;> simp [pure, Except.pure]
  | cons a as ih =>
      rw [List.mapM_cons, except_bind_eq_ok]
      constructor
      · rintro ⟨b, hFirst, h⟩
        rcases except_map_eq_ok.mp h with ⟨more, hMore, rfl⟩
        rw [List.map_cons, ← (hMade a b).mp hFirst,
          ← ih.mp hMore]
      · intro h
        cases bs with
        | nil => cases h
        | cons b bs =>
            cases h
            exact
              ⟨b, (hMade _ b).mpr rfl,
                except_map_eq_ok.mpr ⟨bs, ih.mpr rfl, rfl⟩⟩

------------------------------------------------------------
-- Places
------------------------------------------------------------

namespace Cursor

/- The characters from one place up to another are such. -/
def Passes
    (p : Char → Bool)
    (c d : Cursor) : Prop :=
  ∃ taken, c.rest = taken ++ d.rest ∧ taken.all p = true

variable {p q : Char → Bool}
variable {c d e : Cursor}

theorem Passes.refl (c : Cursor) : Passes p c c :=
  ⟨[], rfl, rfl⟩

/- What holds on both parts of a way holds on all of it. -/
theorem Passes.trans
    (hFirst : Passes p c d)
    (hSecond : Passes p d e) :
    Passes p c e := by
  rcases hFirst with ⟨first, hRest, hFirst⟩
  rcases hSecond with ⟨second, hRest', hSecond⟩
  refine ⟨first ++ second, ?_, ?_⟩
  · rw [hRest, hRest', List.append_assoc]
  · rw [List.all_append, hFirst, hSecond]
    rfl

/- A larger class of characters is passed, too. -/
theorem Passes.mono
    (hPasses : Passes p c d)
    (h : ∀ x, p x = true → q x = true) :
    Passes q c d := by
  rcases hPasses with ⟨taken, hRest, hTaken⟩
  refine ⟨taken, hRest, ?_⟩
  rw [List.all_eq_true] at hTaken ⊢
  exact fun x hx => h x (hTaken x hx)

/- The character to read stands before the next place. -/
theorem rest_of_current
    {x : Char}
    (h : c.current? = some x) :
    c.rest = x :: c.advance.rest := by
  rcases c with ⟨rest, line⟩
  cases rest with
  | nil => cases h
  | cons y rest =>
      cases h
      rfl

/- Two characters may be seen before they are read. -/
theorem rest_of_next
    {x y : Char}
    (h : c.current? = some x)
    (hNext : c.next? = some y) :
    c.rest = x :: y :: c.advance.advance.rest := by
  rcases c with ⟨rest, line⟩
  cases rest with
  | nil => cases h
  | cons z rest =>
      cases h
      cases rest with
      | nil => cases hNext
      | cons z rest =>
          cases hNext
          rfl

/- After a step the next character is the one to read. -/
theorem current_advance (c : Cursor) :
    c.advance.current? = c.next? := by
  rcases c with ⟨rest, line⟩
  cases rest <;> rfl

/- A step over a character, or none at the end. -/
theorem passes_advance
    (h : c.current?.all p = true) :
    Passes p c c.advance := by
  rcases c with ⟨rest, line⟩
  cases rest with
  | nil => exact ⟨[], rfl, rfl⟩
  | cons x rest =>
      refine ⟨[x], rfl, ?_⟩
      simpa [current?] using h

/- A step over a character leaves one less. -/
theorem length_advance
    (h : c.current?.isSome = true) :
    c.advance.rest.length + 1 = c.rest.length := by
  rcases c with ⟨rest, line⟩
  cases rest with
  | nil => cases h
  | cons x rest => rfl

/- There is no more to read behind than before. -/
theorem Passes.length_le
    (hPasses : Passes p c d) :
    d.rest.length ≤ c.rest.length := by
  rcases hPasses with ⟨taken, hRest, -⟩
  rw [hRest, List.length_append]
  omega

end Cursor

namespace Scan

variable {α β σ : Type}
variable {c d : Cursor}

------------------------------------------------------------
-- Readers that Have Given a Value
------------------------------------------------------------

/- Both of two readers in a row have given a value. -/
theorem bind_eq_ok
    {scan : Scan α}
    {next : α → Scan β}
    {b : β} :
    (scan >>= next) c = .ok b d ↔
      ∃ a e, scan c = .ok a e ∧ next a e = .ok b d := by
  rw [bind_apply]
  cases scan c with
  | ok a e => simp
  | error e c => simp

@[simp]
theorem pure_eq_ok {a b : α} :
    (pure a : Scan α) c = .ok b d ↔ a = b ∧ c = d := by
  change EStateM.Result.ok a c = .ok b d ↔ _
  simp

@[simp]
theorem current_bind_apply (next : Option Char → Scan β) :
    (current? >>= next) c = next c.current? c :=
  rfl

@[simp]
theorem next_bind_apply (next : Option Char → Scan β) :
    (next? >>= next) c = next c.next? c :=
  rfl

@[simp]
theorem advance_bind_apply (next : Unit → Scan β) :
    (advance >>= next) c = next () c.advance :=
  rfl

/- What is not kept has been read all the same. -/
theorem discard_eq_ok
    {scan : Scan α}
    {u : Unit}
    (h : discard scan c = .ok u d) :
    ∃ a, scan c = .ok a d := by
  change EStateM.map (fun _ => ()) scan c = _ at h
  unfold EStateM.map at h
  cases hScan : scan c with
  | ok a e =>
      rw [hScan] at h
      cases h
      exact ⟨a, rfl⟩
  | error e c' =>
      rw [hScan] at h
      cases h

@[simp]
theorem line_bind_apply (next : Nat → Scan β) :
    (line >>= next) c = next c.line c :=
  rfl

/- What is given could be made, and nothing was read. -/
theorem constructAt_eq_ok
    {line : Nat}
    {made : Except Error α}
    {a : α}
    (h : constructAt line made c = .ok a d) :
    made = .ok a ∧ c = d := by
  cases made with
  | ok b =>
      cases h
      exact ⟨rfl, rfl⟩
  | error e => cases h

/- A part that is given could be made of what was read. -/
theorem construct_eq_ok
    {made : Except ValueError α}
    {a : α}
    (h : construct (orValueError made) c = .ok a d) :
    made = .ok a ∧ c = d := by
  rcases constructAt_eq_ok h with ⟨hMade, hPlace⟩
  exact ⟨orValueError_eq_ok.mp hMade, hPlace⟩

/- A text has been read from its start. -/
theorem readAll_eq_ok
    {scan : Scan α}
    {text : String}
    {a : α}
    (h : readAll scan text = .ok a) :
    ∃ d, scan (.ofText text) = .ok a d := by
  unfold readAll at h
  cases hScan : scan (.ofText text) with
  | ok b d =>
      rw [hScan] at h
      cases h
      exact ⟨d, rfl⟩
  | error e d =>
      rw [hScan] at h
      cases h

/- The character that was expected has been passed. -/
theorem expect_eq_ok
    {x : Char}
    {what : Expected}
    {u : Unit}
    (h : expect x what c = .ok u d) :
    c.current? = some x ∧ d = c.advance := by
  unfold expect at h
  rw [current_bind_apply] at h
  split_ifs at h with hx
  · cases h
    exact ⟨hx, rfl⟩
  · cases h

/- Nothing has been left to read. -/
theorem finish_eq_ok
    {u : Unit}
    (h : finish c = .ok u d) :
    c.rest = [] := by
  unfold finish at h
  rw [current_bind_apply] at h
  split_ifs at h with hMore
  · cases h
  · simpa [Cursor.current?] using hMore

/-
  The expected character is of the class, so the step is.
-/
theorem passes_expect
    {p : Char → Bool}
    {x : Char}
    {what : Expected}
    {u : Unit}
    (hx : p x = true)
    (h : expect x what c = .ok u d) :
    Cursor.Passes p c d := by
  rcases expect_eq_ok h with ⟨hHead, rfl⟩
  apply Cursor.passes_advance
  rw [hHead]
  exact hx

------------------------------------------------------------
-- Runs
------------------------------------------------------------

/- What is stepped over stands before the new place. -/
theorem append_skip
    {run : List Char}
    (hRun : run <+: c.rest) :
    c.rest = run ++ (c.skip run).rest :=
  (List.prefix_iff_eq_append.mp hRun).symm

/- A run has been read up to another kind of character. -/
theorem span_eq_ok
    {p : Char → Bool}
    {run : List Char}
    (h : span p c = .ok run d) :
    c.rest = run ++ d.rest ∧ run.all p = true ∧
      d.rest.head?.all (fun c => !p c) = true := by
  cases h
  have hRest := append_skip (List.takeWhile_prefix p (l := c.rest))
  refine ⟨hRest, List.all_takeWhile, ?_⟩
  have hAll :=
    List.takeWhile_append_dropWhile (p := p) (l := c.rest)
  have hDrop := List.append_cancel_left (hAll.trans hRest)
  rw [← hDrop]
  cases hMore : c.rest.dropWhile p with
  | nil => rfl
  | cons x more =>
      have hHead := List.head?_dropWhile_not p c.rest
      rw [hMore] at hHead
      simpa using hHead

/- What a run takes is of its class. -/
theorem passes_span
    {p : Char → Bool}
    {run : List Char}
    (h : span p c = .ok run d) :
    Cursor.Passes p c d :=
  ⟨run, (span_eq_ok h).1, (span_eq_ok h).2.1⟩

/- A limited run is a run. -/
theorem passes_spanAtMost
    {p : Char → Bool}
    {count : Nat}
    {run : List Char}
    (h : spanAtMost count p c = .ok run d) :
    Cursor.Passes p c d := by
  cases h
  exact
    ⟨(c.rest.take count).takeWhile p,
      append_skip
        ((List.takeWhile_prefix p).trans
          (List.take_prefix _ _)),
      List.all_takeWhile⟩

theorem passes_skipSpace
    {u : Unit}
    (h : skipSpace c = .ok u d) :
    Cursor.Passes isSpace c d := by
  cases h
  have hSpan :
      span isSpace c =
        .ok (c.rest.takeWhile isSpace)
          (c.skip (c.rest.takeWhile isSpace)) :=
    rfl
  exact passes_span hSpan

/- So many digits have been read, and make a number. -/
theorem digitsOf_eq_ok
    {base : Nat}
    {value? : Char → Option Nat}
    {what : Expected}
    {count n m : Nat}
    (h : digitsOf base value? what count n c = .ok m d) :
    ∃ ds : List (Char × Nat),
      c.rest = ds.map Prod.fst ++ d.rest ∧
      ds.length = count ∧
      (∀ x ∈ ds, value? x.1 = some x.2) ∧
      m = ds.foldl (fun n x => base * n + x.2) n := by
  induction count generalizing n c with
  | zero =>
      rw [digitsOf, pure_eq_ok] at h
      rcases h with ⟨rfl, rfl⟩
      exact ⟨[], rfl, rfl, by simp, rfl⟩
  | succ count ih =>
      rw [digitsOf, current_bind_apply] at h
      cases hDigit : c.current?.bind value? with
      | none =>
          rw [hDigit] at h
          cases h
      | some k =>
          rw [hDigit] at h
          rcases Option.bind_eq_some_iff.mp hDigit with
            ⟨x, hx, hValue⟩
          rcases ih h with ⟨ds, hRest, hLength, hDs, hm⟩
          refine ⟨(x, k) :: ds, ?_, ?_, ?_, hm⟩
          · rw [Cursor.rest_of_current hx, hRest]
            rfl
          · rw [List.length_cons, hLength]
          · exact List.forall_mem_cons.mpr ⟨hValue, hDs⟩

/- All digits are of a class that has each of them. -/
theorem passes_digitsOf
    {p : Char → Bool}
    {base : Nat}
    {value? : Char → Option Nat}
    {what : Expected}
    (hp : ∀ x, (value? x).isSome = true → p x = true)
    {count n m : Nat}
    (h : digitsOf base value? what count n c = .ok m d) :
    Cursor.Passes p c d := by
  rcases digitsOf_eq_ok h with ⟨ds, hRest, -, hDs, -⟩
  refine ⟨_, hRest, ?_⟩
  rw [List.all_map, List.all_eq_true]
  intro x hx
  exact hp x.1 (by rw [hDs x hx]; rfl)

------------------------------------------------------------
-- Repetition
------------------------------------------------------------

/-
  A loop that gives something has stopped at once, or made a
  step. That was its last one if the bound is used up.
-/
theorem iterateWithin_eq_ok
    {step : σ → Scan (Option σ)}
    {bound : List Char}
    {s t : σ}
    (h : iterateWithin step bound s c = .ok t d) :
    (s = t ∧ step s c = .ok none d) ∨
      ∃ s' c',
        step s c = .ok (some s') c' ∧
          match bound with
          | [] => s' = t ∧ c' = d
          | _ :: more =>
              iterateWithin step more s' c' = .ok t d := by
  cases hOnce : step s c with
  | error e c' =>
      cases bound <;> simp [iterateWithin, hOnce] at h
  | ok next c' =>
      cases next with
      | none =>
          have hEnd : s = t ∧ c' = d := by
            cases bound <;> simpa [iterateWithin, hOnce] using h
          rcases hEnd with ⟨rfl, rfl⟩
          exact Or.inl ⟨rfl, rfl⟩
      | some s' =>
          refine Or.inr ⟨s', c', rfl, ?_⟩
          cases bound <;> simpa [iterateWithin, hOnce] using h

/- What each step keeps holds at the end. -/
theorem iterate_invariant
    {step : σ → Scan (Option σ)}
    {s t : σ}
    (inv : σ → Cursor → Prop)
    (hStep : ∀ s s' c c',
      inv s c → step s c = .ok (some s') c' → inv s' c')
    (hNone : ∀ s c c',
      inv s c → step s c = .ok none c' → inv s c')
    (hStart : inv s c)
    (h : iterate step s c = .ok t d) :
    inv t d := by
  have hWithin : ∀ bound s c,
      inv s c → iterateWithin step bound s c = .ok t d →
        inv t d := by
    intro bound
    induction bound with
    | nil =>
        intro s c hStart h
        rcases iterateWithin_eq_ok h with
          ⟨rfl, hOnce⟩ | ⟨s', c', hOnce, rfl, rfl⟩
        · exact hNone _ _ _ hStart hOnce
        · exact hStep _ _ _ _ hStart hOnce
    | cons x bound ih =>
        intro s c hStart h
        rcases iterateWithin_eq_ok h with
          ⟨rfl, hOnce⟩ | ⟨s', c', hOnce, hRest⟩
        · exact hNone _ _ _ hStart hOnce
        · exact ih s' c' (hStep _ _ _ _ hStart hOnce) hRest
  exact hWithin c.rest s c hStart h

/- Steps that read something end where there is no more. -/
theorem iterate_stops
    {step : σ → Scan (Option σ)}
    {s t : σ}
    (hShorter : ∀ s s' c c',
      step s c = .ok (some s') c' →
        c'.rest.length < c.rest.length)
    (h : iterate step s c = .ok t d) :
    ∃ c', step t c' = .ok none d := by
  have hWithin : ∀ (bound : List Char) s c,
      c.rest.length ≤ bound.length →
        iterateWithin step bound s c = .ok t d →
          ∃ c', step t c' = .ok none d := by
    intro bound
    induction bound with
    | nil =>
        intro s c hLength h
        rcases iterateWithin_eq_ok h with
          ⟨rfl, hOnce⟩ | ⟨s', c', hOnce, -⟩
        · exact ⟨c, hOnce⟩
        · have hLess := hShorter _ _ _ _ hOnce
          rw [List.length_nil] at hLength
          omega
    | cons x bound ih =>
        intro s c hLength h
        rcases iterateWithin_eq_ok h with
          ⟨rfl, hOnce⟩ | ⟨s', c', hOnce, hRest⟩
        · exact ⟨c, hOnce⟩
        · have hLess := hShorter _ _ _ _ hOnce
          rw [List.length_cons] at hLength
          exact ih s' c' (by omega) hRest
  exact hWithin c.rest s c (Nat.le_refl _) h

/-
  Items are put one before the other while they are read.
-/
theorem collect_eq_ok
    {item? : Scan (Option α)}
    {items : List α}
    (h : collect item? c = .ok items d) :
    iterate
        (fun items => do
          let item ← item?
          return item.map (· :: items))
        [] c =
      .ok items.reverse d := by
  unfold collect at h
  rcases bind_eq_ok.mp h with ⟨behind, e, hIterate, hPure⟩
  rcases pure_eq_ok.mp hPure with ⟨rfl, rfl⟩
  rw [hIterate, List.reverse_reverse]

/- What each item keeps holds of all, in their order. -/
theorem collect_invariant
    {item? : Scan (Option α)}
    {items : List α}
    (inv : List α → Cursor → Prop)
    (hItem : ∀ items item c c',
      inv items c → item? c = .ok (some item) c' →
        inv (items ++ [item]) c')
    (hNone : ∀ items c c',
      inv items c → item? c = .ok none c' → inv items c')
    (hStart : inv [] c)
    (h : collect item? c = .ok items d) :
    inv items d := by
  have hEnd :=
    iterate_invariant
      (fun behind c => inv behind.reverse c)
      (by
        intro behind behind' c c' hInv hStep
        rcases bind_eq_ok.mp hStep with
          ⟨item, e, hOnce, hPure⟩
        rcases pure_eq_ok.mp hPure with ⟨hMap, rfl⟩
        cases item with
        | none => cases hMap
        | some item =>
            cases hMap
            rw [List.reverse_cons]
            exact hItem _ _ _ _ hInv hOnce)
      (by
        intro behind c c' hInv hStep
        rcases bind_eq_ok.mp hStep with
          ⟨item, e, hOnce, hPure⟩
        rcases pure_eq_ok.mp hPure with ⟨hMap, rfl⟩
        cases item with
        | none => exact hNone _ _ _ hInv hOnce
        | some item => cases hMap)
      hStart (collect_eq_ok h)
  rwa [List.reverse_reverse] at hEnd

/- Items that take something are read up to no more. -/
theorem collect_stops
    {item? : Scan (Option α)}
    {items : List α}
    (hShorter : ∀ item c c',
      item? c = .ok (some item) c' →
        c'.rest.length < c.rest.length)
    (h : collect item? c = .ok items d) :
    ∃ c', item? c' = .ok none d := by
  have hStops :=
    iterate_stops
      (by
        intro behind behind' c c' hStep
        rcases bind_eq_ok.mp hStep with
          ⟨item, e, hOnce, hPure⟩
        rcases pure_eq_ok.mp hPure with ⟨hMap, rfl⟩
        cases item with
        | none => cases hMap
        | some item => exact hShorter _ _ _ hOnce)
      (collect_eq_ok h)
  rcases hStops with ⟨c', hStep⟩
  rcases bind_eq_ok.mp hStep with ⟨item, e, hOnce, hPure⟩
  rcases pure_eq_ok.mp hPure with ⟨hMap, rfl⟩
  cases item with
  | none => exact ⟨c', hOnce⟩
  | some item => cases hMap

/-
  Where a turn takes an item, or stops without a step, items
  are read up to a place to stop, and what each of them keeps
  holds of all.
-/
theorem collect_takes
    {item? : Scan (Option α)}
    {items : List α}
    {takes : Cursor → α → Cursor → Prop}
    {stops : Cursor → Prop}
    (hTurn : ∀ x c c', item? c = .ok x c' →
      (x = none ∧ stops c ∧ c = c') ∨
        ∃ item, x = some item ∧ takes c item c')
    (hShorter : ∀ item c c',
      item? c = .ok (some item) c' →
        c'.rest.length < c.rest.length)
    (inv : List α → Cursor → Prop)
    (hItem : ∀ items item c c',
      inv items c → takes c item c' →
        inv (items ++ [item]) c')
    (hStart : inv [] c)
    (h : collect item? c = .ok items d) :
    inv items d ∧ stops d := by
  constructor
  · refine collect_invariant inv ?_ ?_ hStart h
    · intro items item c c' hInv hOnce
      rcases hTurn _ _ _ hOnce with
        ⟨hNone, -⟩ | ⟨item', hSome, hTakes⟩
      · cases hNone
      · cases hSome
        exact hItem _ _ _ _ hInv hTakes
    · intro items c c' hInv hOnce
      rcases hTurn _ _ _ hOnce with
        ⟨-, -, rfl⟩ | ⟨item, hSome, -⟩
      · exact hInv
      · cases hSome
  · rcases collect_stops hShorter h with ⟨c', hOnce⟩
    rcases hTurn _ _ _ hOnce with
      ⟨-, hStops, rfl⟩ | ⟨item, hSome, -⟩
    · exact hStops
    · cases hSome

------------------------------------------------------------
-- What Readers Give
------------------------------------------------------------

/- Whatever the reader gives, wherever it reads, has this. -/
def Gives
    (scan : Scan α)
    (P : α → Prop) : Prop :=
  ∀ c a d, scan c = .ok a d → P a

theorem gives_true (scan : Scan α) :
    Gives scan (fun _ => True) :=
  fun _ _ _ _ => trivial

/- What is given at once has what it has. -/
theorem gives_pure
    {P : α → Prop}
    {a : α}
    (ha : P a) :
    Gives (pure a) P := by
  intro c b d h
  rcases pure_eq_ok.mp h with ⟨rfl, -⟩
  exact ha

/- Anything holds of no item. -/
theorem gives_none (P : α → Prop) :
    Gives (pure none) (fun item => ∀ a ∈ item, P a) :=
  gives_pure nofun

theorem gives_some
    {P : α → Prop}
    {a : α}
    (ha : P a) :
    Gives (pure (some a)) (fun item => ∀ b ∈ item, P b) :=
  gives_pure (by simpa using ha)

/- A failure gives nothing that could lack anything. -/
theorem gives_fail
    (fault : Fault)
    (P : α → Prop) :
    Gives (fail fault) P :=
  nofun

theorem gives_wants
    (what : Expected)
    (P : α → Prop) :
    Gives (wants what) P :=
  nofun

/- What the maker of a value gives, the reader gives. -/
theorem gives_construct
    {made : Except ValueError α}
    {P : α → Prop}
    (hMade : ∀ a, made = .ok a → P a) :
    Gives (construct (orValueError made)) P :=
  fun _ a _ h => hMade a (construct_eq_ok h).1

/- What the first gives, the second may build on. -/
theorem Gives.bind
    {scan : Scan α}
    {next : α → Scan β}
    {P : α → Prop}
    {Q : β → Prop}
    (hScan : Gives scan P)
    (hNext : ∀ a, P a → Gives (next a) Q) :
    Gives (scan >>= next) Q := by
  intro c b d h
  rcases bind_eq_ok.mp h with ⟨a, e, hFirst, hSecond⟩
  exact hNext a (hScan c a e hFirst) e b d hSecond

/- What comes first may not matter. -/
theorem gives_bind
    {scan : Scan α}
    {next : α → Scan β}
    {Q : β → Prop}
    (hNext : ∀ a, Gives (next a) Q) :
    Gives (scan >>= next) Q :=
  (gives_true scan).bind fun a _ => hNext a

/- What is refused on a condition does not come. -/
theorem gives_ite_fail
    {p : Prop}
    [Decidable p]
    {fault : Fault}
    {next : Unit → Scan β}
    {Q : β → Prop}
    (hNext : ¬p → Gives (next ()) Q) :
    Gives (if p then fail fault >>= next else next ()) Q := by
  split_ifs with h
  · exact (gives_fail fault (fun _ => False)).bind nofun
  · exact hNext h

/- What each step keeps, all of them keep. -/
theorem Gives.iterate
    {step : σ → Scan (Option σ)}
    {P : σ → Prop}
    (hStep : ∀ s, P s →
      Gives (step s) (fun next => ∀ t ∈ next, P t))
    {s : σ}
    (hs : P s) :
    Gives (iterate step s) P := by
  intro c t d h
  refine
    iterate_invariant (fun s _ => P s) ?_
      (fun _ _ _ hs _ => hs) hs h
  intro s s' c c' hs hNext
  exact hStep s hs c (some s') c' hNext s' rfl

/- What each item has, all that are collected have. -/
theorem Gives.collect
    {item? : Scan (Option α)}
    {P : α → Prop}
    (hItem : Gives item? (fun item => ∀ a ∈ item, P a)) :
    Gives (collect item?) (fun items => ∀ a ∈ items, P a) := by
  intro c items d h
  refine
    collect_invariant (fun items _ => ∀ a ∈ items, P a) ?_
      (fun _ _ _ hAll _ => hAll) (by simp) h
  intro items a c c' hAll hNext b hb
  rw [List.mem_append, List.mem_singleton] at hb
  rcases hb with hb | rfl
  · exact hAll b hb
  · exact hItem c (some b) c' hNext b rfl

end Scan

end Haystack
