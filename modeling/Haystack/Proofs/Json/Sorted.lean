import Haystack.Proofs.Json.RoundTrip

/-
  This file shows that the JSON of a record does not depend
  on the order of its entries, since members are sorted.

  Main declarations:
    * `Json.putMember_comm`
    * `Json.ofMembers_eq_of_perm`
    * `Record.toJson_eq_of_perm`
-/

namespace Haystack

namespace Json

/- Members with different names may be put in any order. -/
theorem putMember_comm
    {first second : String}
    (hNe : first ≠ second)
    (v w : Json)
    (members : List (String × Json)) :
    putMember second w (putMember first v members) =
      putMember first v (putMember second w members) := by
  induction members with
  | nil =>
      rcases lt_or_gt_of_ne hNe with hLess | hLess <;>
        grind [putMember]
  | cons m members ih =>
      rcases m with ⟨key, old⟩
      -- Where each name belongs settles where both are put.
      rcases lt_trichotomy first key with hFirst | hFirst | hFirst <;>
        rcases lt_trichotomy second key with
          hSecond | hSecond | hSecond <;>
        grind [putMember]

/- The order in which members come does not matter. -/
theorem ofMembers_eq_of_perm
    {members others : List (String × Json)}
    (hNodup : (members.map Prod.fst).Nodup)
    (hPerm : members.Perm others) :
    ofMembers members = ofMembers others := by
  unfold ofMembers
  congr 1
  apply hPerm.foldl_eq'
  intro m hm n hn sorted
  by_cases hNames : m.1 = n.1
  · rw [List.inj_on_of_nodup_map hNodup hm hn hNames]
  · exact putMember_comm hNames m.2 n.2 sorted

end Json

/- Records with the same entries have the same document. -/
theorem Record.toJson_eq_of_perm
    {a b : Record}
    (ha : a.HasUniqueKeys)
    (hPerm : a.entries.Perm b.entries) :
    a.toJson = b.toJson := by
  rw [toJson, toJson, Value.membersOf_eq_map,
    Value.membersOf_eq_map]
  apply Json.ofMembers_eq_of_perm
  · rwa [List.map_map]
  · exact hPerm.map _

end Haystack
