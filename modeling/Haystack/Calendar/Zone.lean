import Haystack.Calendar.RegionIds

/-
  This file defines time zones: a name, and the offset from
  universal time that clocks of that zone show. A zone of a
  region follows the rule of that region, whatever it is: the
  rules of the world are no part of a zone.

  Key definitions include:
    * `OffsetRule`
    * `RegionRules`
    * `ZoneRules`
    * `Zone`
    * `Zone.standardOffset`
    * `Zone.offsetAt`
    * `Zone.offsetAtLocal`
    * `ZoneTable`
    * `ZoneTable.builtin`
    * `ZoneTable.find?`
-/

namespace Haystack

------------------------------------------------------------
-- Regions
------------------------------------------------------------

/-
  What is known of the clocks of a region: the offset of
  today without daylight saving, the offset at an instant,
  and the offset at a local time. Times that clocks show
  twice have the offset of the second one, and times that
  they skip have none. Offsets count in seconds to the east,
  instants and local times in milliseconds from 1970.
-/
structure OffsetRule where
  standard : Int
  offsetAt : Int → Int
  localOffset? : Int → Option Int

/- The rules of all regions, by the ids of these. -/
abbrev RegionRules :=
  String → OffsetRule

------------------------------------------------------------
-- Zones
------------------------------------------------------------

/- A constant offset in seconds east, or that of a region. -/
inductive ZoneRules where
| fixed (offset : Int)
| region (id : String)
deriving DecidableEq, Repr

/- A time zone. -/
structure Zone where
  name : String
  rules : ZoneRules
deriving DecidableEq, Repr

/- Zones hash by their name alone. -/
instance : Hashable Zone where
  hash zone := hash zone.name

/- Milliseconds of a day. -/
def millisPerDay : Int :=
  86400000

/-
  The instants, in milliseconds from 1970, that regions have
  an offset for: the years from -262143 to 262142.
-/
def HasOffset (epoch : Int) : Prop :=
  -8334601228800000 ≤ epoch ∧ epoch ≤ 8210266876799999

instance (epoch : Int) : Decidable (HasOffset epoch) := by
  unfold HasOffset
  infer_instance

namespace Zone

/- Universal time. -/
def utc : Zone :=
  ⟨"UTC", .fixed 0⟩

/- The zone of a region, named by the last part of its id. -/
def ofRegion (id : String) : Zone :=
  ⟨regionName id, .region id⟩

/- The id of the region, if the zone is one. -/
def regionId? (zone : Zone) : Option String :=
  match zone.rules with
  | .fixed _ => none
  | .region id => some id

variable (rules : RegionRules)

/- The offset of today, without daylight saving. -/
def standardOffset (zone : Zone) : Int :=
  match zone.rules with
  | .fixed offset => offset
  | .region id => (rules id).standard

/- The offset at an instant, in milliseconds from 1970. -/
def offsetAt
    (zone : Zone)
    (epoch : Int) : Int :=
  match zone.rules with
  | .fixed offset => offset
  | .region id =>
      if HasOffset epoch then (rules id).offsetAt epoch
      else (rules id).standard

/-
  The offset when clocks show a time, in milliseconds of
  local time. Times that clocks skip get the offset in force
  after the skip, found by the offset of the day before.
-/
def offsetAtLocal
    (zone : Zone)
    (wall : Int) : Int :=
  match zone.rules with
  | .fixed offset => offset
  | .region id =>
      let shown := (rules id).localOffset? wall
      match shown.filter
          (fun o => HasOffset (wall - o * 1000)) with
      | some offset => offset
      | none =>
          let before :=
            zone.offsetAt rules (wall - millisPerDay)
          zone.offsetAt rules (wall - before * 1000)

end Zone

------------------------------------------------------------
-- Tables of Zones
------------------------------------------------------------

/- Zones by name; the first of a name counts. -/
structure ZoneTable where
  zones : List Zone
deriving DecidableEq, Repr

namespace ZoneTable

/- A table without zones. -/
def empty : ZoneTable :=
  ⟨[]⟩

/- Add a zone, instead of one with the same name. -/
def insert
    (table : ZoneTable)
    (zone : Zone) : ZoneTable :=
  ⟨zone :: table.zones⟩

/- The zone with a name. -/
def find?
    (table : ZoneTable)
    (name : String) : Option Zone :=
  table.zones.find? (fun zone => zone.name = name)

/- The zones of all known regions. -/
def builtin : ZoneTable :=
  ⟨regionIds.map Zone.ofRegion⟩

end ZoneTable

/- The zone of those who name none. -/
def Zone.default : Zone :=
  .utc

end Haystack
