import Haystack.Proofs.Zinc.Quoting
import Haystack.Zinc.ValueReading

/-
  This file shows that enclosed literals are read back: URIs
  between backquotes, and media types and places in round
  brackets. A URI is read back if its backslashes come in
  pairs that its reader keeps.

  Key definitions include:
    * `Uri.keepsPairs`
    * `Uri.IsLegible`
    * `MimeType.IsLegible`

  Main declarations:
    * `Zinc.reads_uri_text`
    * `Zinc.reads_bracketed`
-/

namespace Haystack

open Scan

------------------------------------------------------------
-- URIs
------------------------------------------------------------

namespace Uri

/-
  Each backslash, from left to right, is followed by one of
  the characters before which it is kept.
-/
def keepsPairs : List Char → Bool
| [] => true
| ['\\'] => false
| '\\' :: c :: cs => Zinc.keepsBackslash c && keepsPairs cs
| _ :: cs => keepsPairs cs

/- The text of the URI is read as the URI. -/
def IsLegible (u : Uri) : Prop :=
  keepsPairs u.address.toList = true

instance (u : Uri) : Decidable u.IsLegible := by
  unfold IsLegible
  infer_instance

/- Without backslashes there is nothing to keep. -/
theorem keepsPairs_of_not_mem
    {cs : List Char}
    (h : '\\' ∉ cs) :
    keepsPairs cs = true := by
  induction cs with
  | nil => rfl
  | cons c cs ih =>
      rw [List.mem_cons, not_or] at h
      rw [keepsPairs, ih h.2]
      · rintro rfl _
        exact h.1 rfl
      · rintro _ _ rfl _
        exact h.1 rfl

/- The address of a URI makes it again. -/
theorem ofText_address (u : Uri) :
    ofText u.address = .ok u := by
  have hGood : ∀ (index : Nat) (cs : List Char),
      cs.all isUriChar = true → firstBad index cs = none := by
    intro index cs hcs
    induction cs generalizing index with
    | nil => rfl
    | cons c cs ih =>
        rw [List.all_cons, Bool.and_eq_true] at hcs
        rw [firstBad, if_pos hcs.1]
        exact ih _ hcs.2
  unfold ofText
  split
  next => rfl
  next hBad =>
    rw [hGood 0 _ u.valid] at hBad
    cases hBad

end Uri

namespace Zinc

/- What the reader of URIs takes in one step, as it is. -/
inductive IsUriPiece : List Char → Prop where
| plain
    (c : Char)
    (hc : isUriChar c = true)
    (hBackslash : c ≠ '\\') :
    IsUriPiece [c]
| kept
    (c : Char)
    (hc : keepsBackslash c = true) :
    IsUriPiece ['\\', c]

/- A legible address is made of such pieces. -/
theorem exists_uriPieces
    (cs : List Char)
    (hValid : cs.all isUriChar = true)
    (hPairs : Uri.keepsPairs cs = true) :
    ∃ pieces : List (List Char),
      pieces.flatten = cs ∧ ∀ p ∈ pieces, IsUriPiece p := by
  fun_induction Uri.keepsPairs cs with
  | case1 => exact ⟨[], rfl, by simp⟩
  | case2 => cases hPairs
  | case3 c cs ih =>
      simp only [List.all_cons, Bool.and_eq_true]
        at hValid hPairs
      rcases ih hValid.2.2 hPairs.2 with
        ⟨pieces, rfl, hPieces⟩
      refine ⟨['\\', c] :: pieces, rfl, ?_⟩
      rw [List.forall_mem_cons]
      exact ⟨.kept c hPairs.1, hPieces⟩
  | case4 c cs hLast hPair ih =>
      simp only [List.all_cons, Bool.and_eq_true] at hValid
      rcases ih hValid.2 hPairs with ⟨pieces, rfl, hPieces⟩
      refine ⟨[c] :: pieces, rfl, ?_⟩
      rw [List.forall_mem_cons]
      refine ⟨.plain c hValid.1 ?_, hPieces⟩
      rintro rfl
      cases hFlat : pieces.flatten with
      | nil => exact hLast rfl hFlat
      | cons d ds => exact hPair d ds rfl hFlat

/- A piece of a URI is not written as nothing. -/
theorem escape_ne_nil_of_uriPiece
    {p : List Char}
    (hp : IsUriPiece p) :
    p.flatMap Uri.escape ≠ [] := by
  have hEscape (c : Char) : Uri.escape c ≠ [] := by
    unfold Uri.escape
    split_ifs <;> simp
  cases hp <;> simp [hEscape]

/- A piece is read as it was before it was escaped. -/
theorem reads_uriPiece
    {p : List Char}
    (hp : IsUriPiece p)
    (rest : List Char) :
    Reads uriPiece? (p.flatMap Uri.escape) (some p) rest := by
  unfold uriPiece?
  rw [reads_current_bind]
  cases hp with
  | plain c hc hBackslash =>
      by_cases hQuote : c = '`'
      · subst hQuote
        change
          Reads (uriEscaped >>= fun p => pure (some p))
            ['\\', '`'] (some ['`']) rest
        refine Reads.bind_pure ?_ some
        unfold uriEscaped
        rw [reads_next_bind]
        exact
          ((reads_pure ['`'] rest).advance_bind
            '`').advance_bind '\\'
      · have hNewline : c ≠ '\n' := by
          rintro rfl
          cases hc
        have hReturn : c ≠ '\r' := by
          rintro rfl
          cases hc
        simp only [List.flatMap_cons, List.flatMap_nil,
          Uri.escape, hQuote, if_false, List.append_nil,
          List.cons_append, List.nil_append, List.head?_cons,
          hNewline, hReturn, hBackslash, or_self]
        exact (reads_pure (some [c]) rest).advance_bind c
  | kept c hc =>
      have hQuote : c ≠ '`' := by
        rintro rfl
        cases hc
      have hText :
          ['\\', c].flatMap Uri.escape = ['\\', c] := by
        simp [Uri.escape, hQuote]
      rw [hText]
      change
        Reads (uriEscaped >>= fun p => pure (some p))
          ['\\', c] (some ['\\', c]) rest
      refine Reads.bind_pure ?_ some
      unfold uriEscaped
      rw [reads_next_bind]
      simp only [List.cons_append, List.tail_cons,
        List.head?_cons, hc, if_true]
      exact
        ((reads_pure ['\\', c] rest).advance_bind
          c).advance_bind '\\'

/- A URI between backquotes is read back. -/
theorem reads_uri_text
    {u : Uri}
    (hu : u.IsLegible)
    (rest : List Char) :
    Reads uri u.text u rest := by
  rcases exists_uriPieces u.address.toList u.valid hu with
    ⟨pieces, hFlat, hPieces⟩
  have hCollect :
      Reads (collect uriPiece?)
        (pieces.flatMap (fun p => p.flatMap Uri.escape) ++ [])
        (pieces.map id) (['`'] ++ rest) := by
    apply reads_collect
    · intro before p after hSplit
      refine reads_uriPiece (hPieces p ?_) _
      simp [hSplit]
    · intro p hp
      exact escape_ne_nil_of_uriPiece (hPieces p hp)
    · exact reads_pure none _
  have hEscaped :
      pieces.flatMap (fun p => p.flatMap Uri.escape) =
        u.address.toList.flatMap Uri.escape := by
    rw [← hFlat, ← List.flatMap_id, List.flatMap_assoc]
    rfl
  rw [List.append_nil, List.map_id, hEscaped] at hCollect
  unfold uri
  change
    Reads _
      ('`' :: (u.address.toList.flatMap Uri.escape ++ ['`'])) _
      rest
  refine Reads.advance_bind ?_ '`'
  apply Reads.bind hCollect
  rw [hFlat, String.ofList_toList, Uri.ofText_address]
  exact (reads_pure u rest).advance_bind '`'

------------------------------------------------------------
-- Round Brackets
------------------------------------------------------------

/- What stands in round brackets is read as it is. -/
theorem reads_bracketed
    (what : Enclosed)
    {cs : List Char}
    (hClose : ')' ∉ cs)
    (hNewline : '\n' ∉ cs)
    (hReturn : '\r' ∉ cs)
    (rest : List Char) :
    Reads (bracketed what) (['('] ++ cs ++ [')']) cs rest := by
  have hChars :
      Reads (collect (bracketedChar? what))
        (cs.flatMap (fun c => [c]) ++ []) (cs.map id)
        ([')'] ++ rest) := by
    apply reads_collect
    · intro before c after hSplit
      have hc : c ∈ cs := by simp [hSplit]
      have hcClose : c ≠ ')' := fun h => hClose (h ▸ hc)
      have hcNewline : c ≠ '\n' := fun h => hNewline (h ▸ hc)
      have hcReturn : c ≠ '\r' := fun h => hReturn (h ▸ hc)
      unfold bracketedChar?
      rw [reads_current_bind]
      simp only [List.cons_append, List.nil_append,
        List.head?_cons, hcClose, hcNewline, hcReturn,
        or_self, if_false]
      exact (reads_pure (some c) _).advance_bind c
    · simp
    · exact reads_pure none _
  rw [List.append_nil, List.map_id] at hChars
  unfold bracketed
  change Reads _ ('(' :: (cs ++ [')'])) cs rest
  refine Reads.expect_bind ?_ '(' _
  apply Reads.bind (by simpa using hChars)
  exact (reads_pure cs rest).advance_bind ')'

end Zinc

------------------------------------------------------------
-- Media Types
------------------------------------------------------------

namespace MimeType

/- The text of the media type is on one line. -/
def IsLegible (mime : MimeType) : Prop :=
  '\n' ∉ mime.name.toList ∧ '\r' ∉ mime.name.toList

instance (mime : MimeType) : Decidable mime.IsLegible := by
  unfold IsLegible
  infer_instance

/- The name of a media type makes it again. -/
theorem ofText_name (mime : MimeType) :
    ofText mime.name = .ok mime := by
  unfold ofText
  rw [dif_pos mime.slash_mem]
  split
  next => rfl
  next c hBad =>
    have hAll := List.all_eq_true.mp mime.valid
    have hMem := List.mem_of_find?_eq_some hBad
    have hNot := List.find?_some hBad
    rw [hAll c hMem] at hNot
    cases hNot

/- A media type cannot hold the bracket that ends it. -/
theorem close_not_mem_name (mime : MimeType) :
    ')' ∉ mime.name.toList :=
  not_mem_of_all rfl mime.valid

end MimeType

end Haystack
