import Haystack.Proofs.Text.Places

/-
  This file defines how reading goes when loops are repeated
  without any bound, and counts their turns. Where each turn
  reads something, such a loop ends, after no more turns than
  there are characters, and with what the bounded one gives.

  Key definitions include:
    * `Cursor.Consumes`
    * `Scan.Course`
    * `Scan.Course.andThen`
    * `Scan.Course.loop`
    * `Scan.Course.IsOnly`
    * `Scan.Ends`
    * `Scan.StepEnds`

  Main declarations:
    * `Scan.Ends.andThen`
    * `Scan.ends_loop`
    * `Scan.ends_collect`
-/

namespace Haystack

------------------------------------------------------------
-- Characters that Are Read
------------------------------------------------------------

namespace Cursor

variable {c d : Cursor}

/- The second place is found by passing some characters. -/
def Consumes (c d : Cursor) : Prop :=
  ∃ taken, taken ≠ [] ∧ taken <+: c.rest ∧ d = c.skip taken

/- There is no more to read at a place that is reached. -/
theorem Reaches.length_le
    (hReaches : c.Reaches d) :
    d.rest.length ≤ c.rest.length := by
  rcases hReaches with ⟨taken, -, rfl⟩
  rw [Cursor.skip, List.length_drop]
  omega

/- Where less is left to read, something has been passed. -/
theorem Reaches.consumes
    (hReaches : c.Reaches d)
    (hShorter : d.rest.length < c.rest.length) :
    c.Consumes d := by
  rcases hReaches with ⟨taken, hPrefix, rfl⟩
  refine ⟨taken, ?_, hPrefix, rfl⟩
  rintro rfl
  exact Nat.lt_irrefl _ hShorter

end Cursor

namespace Scan

variable {α β σ : Type}
variable {c d : Cursor}

/- No reader that gives a value leaves more to read. -/
theorem KeepsPlace.reaches
    {scan : Scan α}
    {a : α}
    (hScan : KeepsPlace scan)
    (h : scan c = .ok a d) :
    c.Reaches d :=
  hScan.stops h

theorem KeepsPlace.length_le
    {scan : Scan α}
    {a : α}
    (hScan : KeepsPlace scan)
    (h : scan c = .ok a d) :
    d.rest.length ≤ c.rest.length :=
  (hScan.reaches h).length_le

/- A line end is one character less to read. -/
theorem length_lt_of_newline
    {u : Unit}
    (h : newline c = .ok u d) :
    d.rest.length < c.rest.length := by
  rcases expect_eq_ok h with ⟨hHead, rfl⟩
  have hStep := Cursor.length_advance (by rw [hHead]; rfl)
  omega

/- What comes first, without what it gives. -/
theorem discard_bind
    (scan : Scan α)
    (next : Unit → Scan β) :
    discard scan >>= next = scan >>= fun _ => next () := by
  funext c
  have hDiscard :
      discard scan c = EStateM.map (fun _ => ()) scan c :=
    rfl
  rw [bind_apply, bind_apply, hDiscard]
  unfold EStateM.map
  cases scan c <;> rfl

/- A value or a fault, and the place that is left behind. -/
abbrev Result (α : Type) :=
  EStateM.Result Error Cursor α

------------------------------------------------------------
-- Courses of Reading
------------------------------------------------------------

/-
  From a place on, how many turns loops make, and what comes
  of it. Where a loop does not end, nothing does.
-/
abbrev Course (α : Type) :=
  Cursor → Nat → Result α → Prop

namespace Course

/- A reader of which no turns are counted. -/
def straight (scan : Scan α) : Course α :=
  fun c turns result => turns = 0 ∧ result = scan c

/- One course after another, with what the first gives. -/
inductive andThen
    (first : Course α)
    (next : α → Course β) : Course β where
| fault
    {c d : Cursor}
    {turns : Nat}
    {e : Error}
    (hFirst : first c turns (.error e d)) :
    andThen first next c turns (.error e d)
| value
    {c d : Cursor}
    {turns more : Nat}
    {a : α}
    {result : Result β}
    (hFirst : first c turns (.ok a d))
    (hNext : next a d more result) :
    andThen first next c (turns + more) result

/- A course that is counted as one turn more. -/
inductive turn (course : Course α) : Course α where
| once
    {c : Cursor}
    {turns : Nat}
    {result : Result α}
    (hCourse : course c turns result) :
    turn course c (turns + 1) result

/-
  A step is repeated until it gives nothing new. Each time
  that it gives something, or fails, is a turn.
-/
inductive loop
    (step : σ → Course (Option σ)) : σ → Course σ where
| stop
    {s : σ}
    {c d : Cursor}
    {turns : Nat}
    (hStep : step s c turns (.ok none d)) :
    loop step s c turns (.ok s d)
| fault
    {s : σ}
    {c d : Cursor}
    {turns : Nat}
    {e : Error}
    (hStep : step s c turns (.error e d)) :
    loop step s c (turns + 1) (.error e d)
| next
    {s t : σ}
    {c d : Cursor}
    {turns more : Nat}
    {result : Result σ}
    (hStep : step s c turns (.ok (some t) d))
    (hRest : loop step t d more result) :
    loop step s c (turns + 1 + more) result

/- A course where a test holds, and nothing elsewhere. -/
def whenever
    (test : Cursor → Bool)
    (course : Course α) : Course (Option α) :=
  fun c =>
    if test c then
      course.andThen (fun a => straight (pure (some a))) c
    else straight (pure none) c

/- Items are read in a loop, until there is none. -/
def collect (item? : Course (Option α)) : Course (List α) :=
  (loop
    (fun items =>
      item?.andThen fun item =>
        straight (pure (item.map (· :: items))))
    []).andThen
    fun behind => straight (pure behind.reverse)

/- From the place on, this comes about and nothing else. -/
def IsOnly
    (course : Course α)
    (c : Cursor)
    (turns : Nat)
    (result : Result α) : Prop :=
  ∀ n r, course c n r ↔ n = turns ∧ r = result

end Course

------------------------------------------------------------
-- Turns that Characters Pay For
------------------------------------------------------------

/-
  Each turn has a character of those that are passed, and
  some are left over; after a fault, of all there are.
-/
def IsPaid
    (afterValue afterFault : Int)
    (c : Cursor)
    (turns : Nat) : Result α → Prop
| .ok _ d =>
    turns + afterValue + d.rest.length ≤ c.rest.length
| .error _ _ => turns + afterFault ≤ c.rest.length

/- The course comes to what the reader gives, and is paid. -/
def Ends
    (afterValue afterFault : Int)
    (course : Course α)
    (scan : Scan α)
    (c : Cursor) : Prop :=
  ∃ turns : Nat,
    course.IsOnly c turns (scan c) ∧
      IsPaid afterValue afterFault c turns (scan c)

/-
  What is paid for a step of a loop: a turn as well, unless
  there is nothing new.
-/
def IsPaidStep
    (afterFault : Int)
    (c : Cursor)
    (turns : Nat) : Result (Option σ) → Prop
| .ok (some _) d =>
    turns + 1 + d.rest.length ≤ c.rest.length
| .ok none d => turns + d.rest.length ≤ c.rest.length
| .error _ _ => turns + 1 + afterFault ≤ c.rest.length

/- A step comes to what the reader gives, and is paid. -/
def StepEnds
    (afterFault : Int)
    (course : Course (Option σ))
    (scan : Scan (Option σ))
    (c : Cursor) : Prop :=
  ∃ turns : Nat,
    course.IsOnly c turns (scan c) ∧
      IsPaidStep afterFault c turns (scan c)

/- Without a loop there are no turns to count. -/
theorem Course.isOnly_straight
    (scan : Scan α)
    (c : Cursor) :
    (straight scan).IsOnly c 0 (scan c) :=
  fun _ _ => Iff.rfl

/- A reader without a loop ends, and pays for nothing. -/
theorem ends_straight
    {scan : Scan α}
    {afterValue afterFault : Int}
    (hPaid : IsPaid afterValue afterFault c 0 (scan c)) :
    Ends afterValue afterFault (.straight scan) scan c :=
  ⟨0, Course.isOnly_straight scan c, hPaid⟩

/- So does a step of a loop that has none in it. -/
theorem stepEnds_straight
    {scan : Scan (Option σ)}
    {afterFault : Int}
    (hPaid : IsPaidStep afterFault c 0 (scan c)) :
    StepEnds afterFault (.straight scan) scan c :=
  ⟨0, Course.isOnly_straight scan c, hPaid⟩

/- A reader that keeps its place needs nothing. -/
theorem KeepsPlace.ends
    {scan : Scan α}
    (hScan : KeepsPlace scan)
    (c : Cursor) :
    Ends 0 0 (.straight scan) scan c := by
  apply ends_straight
  cases hResult : scan c with
  | error e d =>
      simp only [IsPaid]
      omega
  | ok a d =>
      have hLe := hScan.length_le hResult
      simp only [IsPaid]
      omega

/-
  One that takes a character leaves that. After a fault as
  many are left as there are.
-/
theorem ends_of_length_lt
    {scan : Scan α}
    {f : Int}
    (hShorter : ∀ a d, scan c = .ok a d →
      d.rest.length < c.rest.length)
    (hFault : f ≤ c.rest.length) :
    Ends 1 f (.straight scan) scan c := by
  apply ends_straight
  cases hResult : scan c with
  | error e d =>
      simp only [IsPaid]
      omega
  | ok a d =>
      have hLess := hShorter a d hResult
      simp only [IsPaid]
      omega

/-
  A step is paid if what it gives takes a character. One that
  fails pays for the turn where there is a character.
-/
theorem KeepsPlace.stepEnds
    {item? : Scan (Option σ)}
    {f : Int}
    (hItem : KeepsPlace item?)
    (hSome : ∀ s d, item? c = .ok (some s) d →
      d.rest.length < c.rest.length)
    (hFault : ∀ e d, item? c = .error e d →
      1 + f ≤ c.rest.length) :
    StepEnds f (.straight item?) item? c := by
  apply stepEnds_straight
  cases hResult : item? c with
  | error e d =>
      have hPaid := hFault e d hResult
      simp only [IsPaidStep]
      omega
  | ok next d =>
      cases next with
      | none =>
          have hLe := hItem.length_le hResult
          simp only [IsPaidStep]
          omega
      | some s =>
          have hLess := hSome s d hResult
          simp only [IsPaidStep]
          omega

/- After a value the next course goes on. -/
theorem Course.IsOnly.andThen_ok
    {first : Course α}
    {next : α → Course β}
    {scan : Scan α}
    {scanNext : α → Scan β}
    {a : α}
    {turns more : Nat}
    (hScan : scan c = .ok a d)
    (hFirst : first.IsOnly c turns (scan c))
    (hNext : (next a).IsOnly d more (scanNext a d)) :
    (first.andThen next).IsOnly c (turns + more)
      ((scan >>= scanNext) c) := by
  rw [hScan] at hFirst
  rw [bind_apply, hScan]
  intro n r
  constructor
  · rintro (hFault | ⟨hValue, hRest⟩)
    · cases ((hFirst _ _).mp hFault).2
    · rcases (hFirst _ _).mp hValue with ⟨rfl, hResult⟩
      cases hResult
      rcases (hNext _ _).mp hRest with ⟨rfl, rfl⟩
      exact ⟨rfl, rfl⟩
  · rintro ⟨rfl, rfl⟩
    exact
      .value ((hFirst _ _).mpr ⟨rfl, rfl⟩)
        ((hNext _ _).mpr ⟨rfl, rfl⟩)

/- After a fault nothing does. -/
theorem Course.IsOnly.andThen_error
    {first : Course α}
    {next : α → Course β}
    {scan : Scan α}
    {e : Error}
    {turns : Nat}
    (hScan : scan c = .error e d)
    (hFirst : first.IsOnly c turns (scan c))
    (scanNext : α → Scan β) :
    (first.andThen next).IsOnly c turns
      ((scan >>= scanNext) c) := by
  rw [hScan] at hFirst
  rw [bind_apply, hScan]
  intro n r
  constructor
  · rintro (hFault | ⟨hValue, hRest⟩)
    · rcases (hFirst _ _).mp hFault with ⟨rfl, hResult⟩
      cases hResult
      exact ⟨rfl, rfl⟩
    · cases ((hFirst _ _).mp hValue).2
  · rintro ⟨rfl, rfl⟩
    exact .fault ((hFirst _ _).mpr ⟨rfl, rfl⟩)

/- What the first leaves over may pay for a later fault. -/
theorem Ends.andThen
    {first : Course α}
    {next : α → Course β}
    {scan : Scan α}
    {scanNext : α → Scan β}
    {v w x f g h : Int}
    (hFirst : Ends v f first scan c)
    (hNext : ∀ a d, Ends w g (next a) (scanNext a) d)
    (hValue : x ≤ v + w)
    (hFault : h ≤ f ∧ h ≤ v + g) :
    Ends x h (first.andThen next) (scan >>= scanNext) c := by
  rcases hFirst with ⟨turns, hOnly, hPaid⟩
  cases hScan : scan c with
  | error e d =>
      refine ⟨turns, hOnly.andThen_error hScan scanNext, ?_⟩
      rw [hScan] at hPaid
      rw [bind_apply, hScan]
      simp only [IsPaid] at hPaid ⊢
      omega
  | ok a d =>
      rcases hNext a d with ⟨more, hOnlyNext, hPaidNext⟩
      refine ⟨turns + more, hOnly.andThen_ok hScan hOnlyNext, ?_⟩
      rw [hScan] at hPaid
      rw [bind_apply, hScan]
      dsimp only
      cases hEnd : scanNext a d <;>
        rw [hEnd] at hPaidNext <;>
          simp only [IsPaid] at hPaid hPaidNext ⊢ <;> omega

/- There are no more turns than the characters pay for. -/
theorem Ends.exists_turns
    {course : Course α}
    {scan : Scan α}
    {v f : Int}
    (hEnds : Ends v f course scan c)
    (due : Nat)
    (hDue : 0 ≤ v + due ∧ 0 ≤ f + due) :
    ∃ turns ≤ c.rest.length + due,
      course.IsOnly c turns (scan c) := by
  rcases hEnds with ⟨turns, hOnly, hPaid⟩
  refine ⟨turns, ?_, hOnly⟩
  cases hScan : scan c <;>
    rw [hScan] at hPaid <;>
      simp only [IsPaid] at hPaid <;> omega

/- A change of the value takes no turn. -/
theorem Course.IsOnly.andThen_pure
    {course : Course α}
    {scan : Scan α}
    {turns : Nat}
    (hOnly : course.IsOnly c turns (scan c))
    (g : α → β) :
    (course.andThen fun a => .straight (pure (g a))).IsOnly c
      turns ((scan >>= fun a => pure (g a)) c) := by
  cases hScan : scan c with
  | error e d => exact hOnly.andThen_error hScan _
  | ok a d =>
      rw [← Nat.add_zero turns]
      exact
        hOnly.andThen_ok hScan (Course.isOnly_straight _ d)

/- A value may be changed afterwards. -/
theorem Ends.andThen_pure
    {course : Course α}
    {scan : Scan α}
    {v f : Int}
    (hEnds : Ends v f course scan c)
    (g : α → β) :
    Ends v f
      (course.andThen fun a => .straight (pure (g a)))
      (scan >>= fun a => pure (g a)) c := by
  rcases hEnds with ⟨turns, hOnly, hPaid⟩
  refine ⟨turns, hOnly.andThen_pure g, ?_⟩
  rw [bind_apply]
  cases hScan : scan c <;> rw [hScan] at hPaid <;> exact hPaid

/- What a test lets pass leaves a character for its turn. -/
theorem Ends.whenever
    {test : Cursor → Bool}
    {course : Course α}
    {item? : Scan (Option α)}
    (scan : Scan α)
    (hEnds : test c = true → Ends 1 1 course scan c)
    (hItem :
      item? c =
        if test c then (scan >>= fun a => pure (some a)) c
        else (pure none : Scan (Option α)) c) :
    StepEnds 0 (.whenever test course) item? c := by
  unfold StepEnds Course.IsOnly Course.whenever
  rw [hItem]
  split_ifs with hTest
  · rcases (hEnds hTest).andThen_pure some with
      ⟨turns, hOnly, hPaid⟩
    refine ⟨turns, hOnly, ?_⟩
    rw [bind_apply] at hPaid ⊢
    cases hScan : scan c <;>
      rw [hScan] at hPaid <;>
        simp only [pure, EStateM.pure, IsPaid,
          IsPaidStep] at hPaid ⊢ <;> omega
  · refine ⟨0, Course.isOnly_straight _ c, ?_⟩
    simp only [pure, EStateM.pure, IsPaidStep]
    omega

/- A turn is paid with what is left over. -/
theorem Ends.turn
    {course : Course α}
    {scan : Scan α}
    {v f : Int}
    (hEnds : Ends v f course scan c) :
    Ends (v - 1) (f - 1) course.turn scan c := by
  rcases hEnds with ⟨turns, hOnly, hPaid⟩
  refine ⟨turns + 1, ?_, ?_⟩
  · intro n r
    constructor
    · rintro ⟨hCourse⟩
      rcases (hOnly _ _).mp hCourse with ⟨rfl, rfl⟩
      exact ⟨rfl, rfl⟩
    · rintro ⟨rfl, rfl⟩
      exact .once ((hOnly _ _).mpr ⟨rfl, rfl⟩)
  · cases hScan : scan c <;>
      rw [hScan] at hPaid <;>
        simp only [IsPaid] at hPaid ⊢ <;> omega

------------------------------------------------------------
-- Loops
------------------------------------------------------------

/- What comes of the first step settles how a loop goes on. -/
theorem Course.isOnly_loop
    {step : σ → Course (Option σ)}
    {s : σ}
    {turns more : Nat}
    {found : Result (Option σ)}
    {result : Result σ}
    (hStep : (step s).IsOnly c turns found)
    (hStop : ∀ d, found = .ok none d →
      more = turns ∧ result = .ok s d)
    (hFault : ∀ e d, found = .error e d →
      more = turns + 1 ∧ result = .error e d)
    (hNext : ∀ t d, found = .ok (some t) d →
      ∃ n, more = turns + 1 + n ∧
        (loop step t).IsOnly d n result) :
    (loop step s).IsOnly c more result := by
  intro n r
  constructor
  · rintro (hEnd | hEnd | ⟨hOnce, hRest⟩)
    · rcases (hStep _ _).mp hEnd with ⟨rfl, hFound⟩
      rcases hStop _ hFound.symm with ⟨rfl, rfl⟩
      exact ⟨rfl, rfl⟩
    · rcases (hStep _ _).mp hEnd with ⟨rfl, hFound⟩
      rcases hFault _ _ hFound.symm with ⟨rfl, rfl⟩
      exact ⟨rfl, rfl⟩
    · rcases (hStep _ _).mp hOnce with ⟨rfl, hFound⟩
      rcases hNext _ _ hFound.symm with ⟨n, rfl, hOnly⟩
      rcases (hOnly _ _).mp hRest with ⟨rfl, rfl⟩
      exact ⟨rfl, rfl⟩
  · rintro ⟨rfl, rfl⟩
    have hOnce := (hStep _ _).mpr ⟨rfl, rfl⟩
    cases found with
    | error e d =>
        rcases hFault e d rfl with ⟨rfl, rfl⟩
        exact .fault hOnce
    | ok next d =>
        cases next with
        | none =>
            rcases hStop d rfl with ⟨rfl, rfl⟩
            exact .stop hOnce
        | some t =>
            rcases hNext t d rfl with ⟨n, rfl, hOnly⟩
            exact .next hOnce ((hOnly _ _).mpr ⟨rfl, rfl⟩)

/- A loop ends if its first step does, and what is left. -/
theorem StepEnds.loop
    {step : σ → Course (Option σ)}
    {scan : σ → Scan (Option σ)}
    {rest : σ → Scan σ}
    {f : Int}
    {s : σ}
    (hStep : StepEnds f (step s) (scan s) c)
    (hRest : ∀ t d, d.rest.length < c.rest.length →
      Ends 0 f (.loop step t) (rest t) d) :
    Ends 0 f (.loop step s)
      (fun c =>
        match scan s c with
        | .error e d => .error e d
        | .ok none d => .ok s d
        | .ok (some t) d => rest t d)
      c := by
  rcases hStep with ⟨turns, hOnly, hPaid⟩
  unfold Ends
  dsimp only
  cases hScan : scan s c with
  | error e d =>
      rw [hScan] at hOnly hPaid
      refine
        ⟨turns + 1, Course.isOnly_loop hOnly nofun ?_ nofun, ?_⟩
      · rintro e' d' ⟨⟩
        exact ⟨rfl, rfl⟩
      · simp only [IsPaidStep, IsPaid] at hPaid ⊢
        omega
  | ok next d =>
      rw [hScan] at hOnly hPaid
      cases next with
      | none =>
          refine
            ⟨turns, Course.isOnly_loop hOnly ?_ nofun nofun, ?_⟩
          · rintro d' ⟨⟩
            exact ⟨rfl, rfl⟩
          · simp only [IsPaidStep, IsPaid] at hPaid ⊢
            omega
      | some t =>
          simp only [IsPaidStep] at hPaid
          rcases hRest t d (by omega) with
            ⟨more, hOnlyMore, hPaidMore⟩
          refine
            ⟨turns + 1 + more,
              Course.isOnly_loop hOnly nofun nofun ?_, ?_⟩
          · rintro t' d' ⟨⟩
            exact ⟨more, rfl, hOnlyMore⟩
          · dsimp only
            cases hEnd : rest t d <;>
              rw [hEnd] at hPaidMore <;>
                simp only [IsPaid] at hPaidMore ⊢ <;> omega

/-
  Steps that are paid for end without a bound, with what the
  bounded loop gives: by induction on the bound, of which a
  character is used for each turn.
-/
theorem ends_loop
    {step : σ → Course (Option σ)}
    {scan : σ → Scan (Option σ)}
    {f : Int}
    (hStep : ∀ s c, StepEnds f (step s) (scan s) c)
    (s : σ)
    (c : Cursor) :
    Ends 0 f (.loop step s) (iterate scan s) c := by
  have hWithin : ∀ (bound : List Char) s c,
      c.rest.length ≤ bound.length →
        Ends 0 f (.loop step s) (iterateWithin scan bound s)
          c := by
    intro bound
    induction bound with
    | nil =>
        intro s c hBound
        refine (hStep s c).loop fun t d hShorter => ?_
        rw [List.length_nil] at hBound
        omega
    | cons x bound ih =>
        intro s c hBound
        refine (hStep s c).loop fun t d hShorter => ?_
        rw [List.length_cons] at hBound
        exact ih t d (by omega)
  exact hWithin c.rest s c (Nat.le_refl _)

/- Items that are paid for are collected without a bound. -/
theorem ends_collect
    {course : Course (Option α)}
    {item? : Scan (Option α)}
    {f : Int}
    (hItem : ∀ c, StepEnds f course item? c)
    (c : Cursor) :
    Ends 0 f (.collect course) (collect item?) c := by
  have hLoop :
      Ends 0 f
        (.loop
          (fun items =>
            course.andThen fun item =>
              .straight (pure (item.map (· :: items))))
          [])
        (iterate
          (fun items => do
            let item ← item?
            return item.map (· :: items))
          [])
        c := by
    refine ends_loop (fun items c => ?_) [] c
    rcases hItem c with ⟨turns, hOnly, hPaid⟩
    refine ⟨turns, hOnly.andThen_pure _, ?_⟩
    rw [bind_apply]
    cases hScan : item? c with
    | error e d =>
        rw [hScan] at hPaid
        exact hPaid
    | ok item d =>
        rw [hScan] at hPaid
        cases item <;> exact hPaid
  exact hLoop.andThen_pure List.reverse

end Scan

end Haystack
