import Haystack.Proofs.Text.Takes
import Haystack.Tag.Name

/-
  This file shows how the names of tags are read: a name is
  what is spelled before the next character that cannot go
  on it, and has at least one character.

  Main declarations:
    * `TagName.ofText?_eq_some_iff`
    * `reads_tagName`
    * `TagName.scan_eq_ok`
-/

namespace Haystack

open Scan

/- Every character of a name may stand in a name. -/
theorem all_isTagChar_of_isTagName
    {cs : List Char}
    (h : isTagName cs = true) :
    cs.all isTagChar = true := by
  cases cs with
  | nil => rfl
  | cons c cs =>
      rw [isTagName, Bool.and_eq_true] at h
      rw [List.all_cons, h.2, isTagChar, isAlpha]
      rw [isTagStart] at h
      rw [h.1]
      rfl

/- The characters that spell a name are those of its text. -/
theorem TagName.ofText?_eq_some_iff
    {cs : List Char}
    {name : TagName} :
    ofText? cs = some name ↔ cs = name.text.toList := by
  unfold ofText?
  constructor
  · intro h
    split_ifs at h
    cases h
    exact String.toList_ofList.symm
  · rintro rfl
    rw [dif_pos name.valid, Option.some_inj]
    simp only [String.ofList_toList]

/- The name of a tag is read up to what cannot go on it. -/
theorem reads_tagName
    {name : String}
    (h : isTagName name.toList = true)
    {rest : List Char}
    (hRest :
      rest.head?.all (fun c => !isTagChar c) = true) :
    Reads TagName.scan name.toList ⟨name, h⟩ rest := by
  intro line
  have hTake :=
    takeWhile_append_of_head (all_isTagChar_of_isTagName h)
      hRest
  have hName :
      TagName.ofText? name.toList = some ⟨name, h⟩ :=
    TagName.ofText?_eq_some_iff.mpr rfl
  unfold TagName.scan
  simp only [hTake, hName, Cursor.skip, List.drop_left]

namespace TagName

variable {c d : Cursor}
variable {name : TagName}

/- The name that is given has been taken from the text. -/
theorem scan_eq_ok
    (h : scan c = .ok name d) :
    c.rest = name.text.toList ++ d.rest := by
  unfold scan at h
  dsimp only at h
  split at h
  next found hFound =>
    cases h
    rw [← ofText?_eq_some_iff.mp hFound]
    exact append_skip (List.takeWhile_prefix isTagChar)
  next => cases h

/- A name has a character. -/
theorem length_lt
    (h : scan c = .ok name d) :
    d.rest.length < c.rest.length := by
  have hName : name.text.toList ≠ [] := by
    intro hNil
    have hValid := name.valid
    rw [hNil] at hValid
    cases hValid
  rw [scan_eq_ok h, List.length_append]
  exact
    Nat.lt_add_of_pos_left (List.length_pos_of_ne_nil hName)

end TagName

end Haystack
