/-
  This file defines dicts: entries under keys, in the order
  in which the keys came.

  Key definitions include:
    * `Dict`
    * `Dict.get?`
    * `Dict.insert`
    * `Dict.erase`
    * `Dict.ofEntries`
-/

namespace Haystack

/- Entries in order, each under its key. -/
structure Dict (α : Type) where
  entries : List (String × α)
deriving Repr

namespace Dict

variable {α : Type}

/- A dict without entries. -/
def empty : Dict α :=
  ⟨[]⟩

/- The number of entries. -/
def size (d : Dict α) : Nat :=
  d.entries.length

/- There are no entries. -/
def isEmpty (d : Dict α) : Bool :=
  d.entries.isEmpty

/- The keys, in order. -/
def keys (d : Dict α) : List String :=
  d.entries.map Prod.fst

/- The entry under a key. -/
def get?
    (d : Dict α)
    (key : String) : Option α :=
  d.entries.lookup key

/- There is an entry under the key. -/
def has
    (d : Dict α)
    (key : String) : Bool :=
  (d.get? key).isSome

/- Put an entry in the place of its key, or at the end. -/
def putEntry
    (key : String)
    (value : α) :
    List (String × α) → List (String × α)
| [] => [(key, value)]
| (k, old) :: entries =>
    if k = key then (k, value) :: entries
    else (k, old) :: putEntry key value entries

/- Set the entry under a key; a new key comes last. -/
def insert
    (d : Dict α)
    (key : String)
    (value : α) : Dict α :=
  ⟨putEntry key value d.entries⟩

/- Take the entry under a key away. -/
def erase
    (d : Dict α)
    (key : String) : Dict α :=
  ⟨d.entries.eraseP (fun e => e.1 = key)⟩

/- Set entries one after the other. -/
def ofEntries (entries : List (String × α)) : Dict α :=
  entries.foldl (fun d e => d.insert e.1 e.2) empty

end Dict

end Haystack
