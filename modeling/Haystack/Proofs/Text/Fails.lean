import Haystack.Proofs.Text.Reads

/-
  This file defines what it is for a reader to fail on a text:
  wherever the text stands, the reader gives an error. One
  that fails stops all readers that it is a part of.

  Key definitions include:
    * `Scan.Fails`

  Main declarations:
    * `Scan.Fails.bind`
    * `Scan.Reads.bind_fails`
    * `Scan.fails_iterate`
    * `Scan.fails_collect`
-/

namespace Haystack

namespace Scan

variable {α β σ : Type}

------------------------------------------------------------
-- Failing on a Text
------------------------------------------------------------

/- Where this is all that is left, the reader fails. -/
def Fails
    (scan : Scan α)
    (cs : List Char) : Prop :=
  ∀ line, ∃ e c, scan ⟨cs, line⟩ = .error e c

/- Nothing is read after a failure. -/
theorem Fails.bind
    {scan : Scan α}
    {cs : List Char}
    (hScan : Fails scan cs)
    (next : α → Scan β) :
    Fails (scan >>= next) cs := by
  intro line
  rcases hScan line with ⟨e, c, hError⟩
  refine ⟨e, c, ?_⟩
  rw [bind_apply, hError]

/- A failure may come after something has been read. -/
theorem Reads.bind_fails
    {scan : Scan α}
    {next : α → Scan β}
    {taken rest : List Char}
    {a : α}
    (hScan : Reads scan taken a rest)
    (hNext : Fails (next a) rest) :
    Fails (scan >>= next) (taken ++ rest) := by
  intro line
  rcases hNext (line + taken.count '\n') with ⟨e, c, hError⟩
  refine ⟨e, c, ?_⟩
  rw [bind_apply, hScan line]
  exact hError

/- A failure behind one more character. -/
theorem Fails.advance_bind
    {next : Unit → Scan β}
    {rest : List Char}
    (hNext : Fails (next ()) rest)
    (x : Char) :
    Fails (advance >>= next) (x :: rest) :=
  Reads.bind_fails (reads_advance x rest) hNext

/- A failure behind the character that was expected. -/
theorem Fails.expect_bind
    {next : Unit → Scan β}
    {rest : List Char}
    (hNext : Fails (next ()) rest)
    (x : Char)
    (what : Expected) :
    Fails (expect x what >>= next) (x :: rest) :=
  Reads.bind_fails (reads_expect x what rest) hNext

@[simp]
theorem fails_current_bind
    (next : Option Char → Scan β)
    (cs : List Char) :
    Fails (current? >>= next) cs ↔ Fails (next cs.head?) cs :=
  Iff.rfl

@[simp]
theorem fails_next_bind
    (next : Option Char → Scan β)
    (cs : List Char) :
    Fails (next? >>= next) cs ↔
      Fails (next cs.tail.head?) cs :=
  Iff.rfl

/- Another character is not taken for the expected one. -/
theorem fails_expect
    {x : Char}
    {cs : List Char}
    (hx : cs.head? ≠ some x)
    (what : Expected) :
    Fails (expect x what) cs := by
  unfold expect
  rw [fails_current_bind, if_neg hx]
  exact fun _ => ⟨_, _, rfl⟩

------------------------------------------------------------
-- Repetition
------------------------------------------------------------

/- A step that fails at once is not repeated. -/
theorem Fails.iterate
    {step : σ → Scan (Option σ)}
    {s : σ}
    {cs : List Char}
    (hStep : Fails (step s) cs) :
    Fails (iterate step s) cs := by
  intro line
  rcases hStep line with ⟨e, c, hError⟩
  refine ⟨e, c, ?_⟩
  unfold Scan.iterate
  dsimp only
  cases cs <;> simp [iterateWithin, hError]

/-
  Steps that read each item are repeated up to the first item
  that the step fails on.
-/
theorem fails_iterate
    {ι : Type}
    {step : σ → Scan (Option σ)}
    {rest : List Char}
    (follow : σ → ι → σ)
    (text : ι → List Char)
    (IsFine : ι → Prop)
    (items : List ι)
    (s : σ)
    (hStep : ∀ before x after,
      items = before ++ x :: after → IsFine x →
        Reads (step (before.foldl follow s)) (text x)
          (some (follow (before.foldl follow s) x))
          (after.flatMap text ++ rest))
    (hFails : ∀ s, ∀ x ∈ items, ¬IsFine x →
      ∀ more, Fails (step s) (text x ++ more))
    (hText : ∀ x ∈ items, text x ≠ [])
    (hSome : ∃ x ∈ items, ¬IsFine x) :
    Fails (iterate step s) (items.flatMap text ++ rest) := by
  -- The bound is no shorter than what is left.
  have hWithin : ∀ (bound : List Char) line,
      (items.flatMap text ++ rest).length ≤ bound.length →
        ∃ e c,
          iterateWithin step bound s
              ⟨items.flatMap text ++ rest, line⟩ =
            .error e c := by
    induction items generalizing s with
    | nil =>
        rcases hSome with ⟨x, hx, _⟩
        cases hx
    | cons x items ih =>
        intro bound line hLength
        rw [List.forall_mem_cons] at hText
        have hPos := List.length_pos_of_ne_nil hText.1
        rw [List.flatMap_cons, List.append_assoc] at hLength ⊢
        rw [List.length_append] at hLength
        cases bound with
        | nil =>
            rw [List.length_nil] at hLength
            omega
        | cons y bound =>
            rw [List.length_cons] at hLength
            by_cases hx : IsFine x
            · have hFirst := hStep [] x items rfl hx line
              have hMore :=
                ((List.exists_mem_cons_iff _ _ _).mp
                  hSome).resolve_left (not_not_intro hx)
              rw [List.foldl_nil] at hFirst
              simp only [iterateWithin, hFirst]
              exact
                ih (follow s x)
                  (fun before y after hItems =>
                    hStep (x :: before) y after
                      (congrArg (x :: ·) hItems))
                  (fun s y hy =>
                    hFails s y (List.mem_cons_of_mem _ hy))
                  hText.2 hMore bound _ (by omega)
            · rcases hFails s x (List.mem_cons_self ..) hx
                (items.flatMap text ++ rest) line with
                ⟨e, c, hError⟩
              simp [iterateWithin, hError]
  exact fun line => hWithin _ line (Nat.le_refl _)

/- Items are collected up to the first failure. -/
theorem fails_collect
    {ι : Type}
    {item? : Scan (Option α)}
    {rest : List Char}
    (text : ι → List Char)
    (value : ι → α)
    (IsFine : ι → Prop)
    (items : List ι)
    (hItem : ∀ before x after,
      items = before ++ x :: after → IsFine x →
        Reads item? (text x) (some (value x))
          (after.flatMap text ++ rest))
    (hFails : ∀ x ∈ items, ¬IsFine x →
      ∀ more, Fails item? (text x ++ more))
    (hText : ∀ x ∈ items, text x ≠ [])
    (hSome : ∃ x ∈ items, ¬IsFine x) :
    Fails (collect item?) (items.flatMap text ++ rest) := by
  refine Fails.bind ?_ _
  refine
    fails_iterate (fun known x => value x :: known) text IsFine
      items [] ?_ ?_ hText hSome
  · intro before x after hItems hx
    exact (hItem before x after hItems hx).bind_pure _
  · intro known x hMem hx more
    exact (hFails x hMem hx more).bind _

end Scan

end Haystack
