import Haystack.Proofs.Zinc.Failures

/-
  This file shows that no reader gets past a media type with
  a line end in its name: what stands in round brackets must
  be on one line.

  Main declarations:
    * `Zinc.fails_bracketed`
    * `Zinc.fails_value_bin`
-/

namespace Haystack

namespace Zinc

open Scan

/- A line end before the closing bracket is not read. -/
theorem fails_bracketed
    (what : Enclosed)
    {cs : List Char}
    (hClose : ')' ∉ cs)
    (hNot : ¬('\n' ∉ cs ∧ '\r' ∉ cs))
    (rest : List Char) :
    Fails (bracketed what) ('(' :: (cs ++ rest)) := by
  have hChars :
      Fails (collect (bracketedChar? what))
        (cs.flatMap (fun c => [c]) ++ rest) := by
    refine
      fails_collect _ id (fun c => ¬(c = '\n' ∨ c = '\r')) cs
        ?_ ?_ (by simp) ?_
    · intro before c after hSplit hc
      have hMem : c ∈ cs := by simp [hSplit]
      have hNotClose : c ≠ ')' := fun h => hClose (h ▸ hMem)
      unfold bracketedChar?
      rw [reads_current_bind]
      simp only [List.cons_append, List.nil_append,
        List.head?_cons, hNotClose, if_false, hc]
      exact (reads_pure (some c) _).advance_bind c
    · intro c hMem hc more
      have hNotClose : c ≠ ')' := fun h => hClose (h ▸ hMem)
      unfold bracketedChar?
      rw [fails_current_bind]
      simp only [List.cons_append, List.nil_append,
        List.head?_cons, hNotClose, if_false,
        not_not.mp hc, if_true]
      exact fun _ => ⟨_, _, rfl⟩
    · by_contra hNone
      push Not at hNone
      refine hNot ⟨fun h => ?_, fun h => ?_⟩
      · exact (hNone _ h).1 rfl
      · exact (hNone _ h).2 rfl
  have hFlat : cs.flatMap (fun c => [c]) = cs := by simp
  rw [hFlat] at hChars
  unfold bracketed
  exact (hChars.bind _).expect_bind '(' _

/- A media type of two lines is refused. -/
theorem fails_value_bin
    {zones : ZoneTable}
    {mime : MimeType}
    (hMime : ¬mime.IsLegible)
    (more : List Char) :
    Fails (value zones .zinc)
      (Value.textIn .zinc (.bin mime) ++ more) := by
  have hInner :
      Fails (cellWord "Bin")
        ('(' :: (mime.name.toList ++ (')' :: more))) :=
    (fails_bracketed .bin mime.close_not_mem_name hMime
      _).bind _
  have hText :
      Value.textIn .zinc (.bin mime) ++ more =
        'B' :: (['i', 'n'] ++
          '(' :: (mime.name.toList ++ ')' :: more)) := by
    simp [Value.textIn, Value.text, MimeType.text]
  rw [hText]
  unfold value
  rw [fails_current_bind]
  change Fails (next? >>= _) _
  rw [fails_next_bind]
  change Fails (word .zinc) _
  unfold word
  rw [fails_current_bind]
  refine Fails.advance_bind ?_ 'B'
  exact (reads_span rfl rfl).bind_fails hInner

end Zinc

end Haystack
