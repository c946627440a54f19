import ProxyPlane.Store.Running

/-!
# Drift

Drift is a difference between what the proxy was started from and what the store holds now.  Only
stamps are compared: a version that has moved is a difference, whatever the contents are.

## Main definitions

* `LiveStamps` — the stamps in the store.
* `Drift`, `Drift.message` — the differences.
* `Drift.detect` — the first difference, sections before groups.
-/

set_option autoImplicit false
namespace ProxyPlane

/-- The stamps in the store: those of the selected sections, and the groups that still exist. -/
structure LiveStamps where
  config : Option Stamp
  dns : Option Stamp
  routing : Option Stamp
  groups : List (Id × Version)
  deriving DecidableEq, Repr

/-- The stamp of a kind of section. -/
def LiveStamps.stamp (s : LiveStamps) : SectionKind → Option Stamp
  | .config => s.config
  | .dns => s.dns
  | .routing => s.routing

/-- How the store differs from what the proxy was started from. -/
inductive Drift
  | notRunning
  | unselected (kind : SectionKind)
  /-- Another section is selected, or the selected one has changed. -/
  | sectionChanged (kind : SectionKind) (running : Option Stamp) (live : Stamp)
  | groupRemoved (id : Id)
  | groupChanged (id : Id) (running live : Version)
  /-- The versions of the groups cannot be read back. -/
  | unreadable
  deriving DecidableEq, Repr

namespace Drift

/-- The wording of a difference. -/
def message : Drift → String
  | .notRunning => "not running"
  | .unselected kind => "no " ++ kind.label ++ " is selected"
  | .sectionChanged kind none live => kind.label ++ " " ++ toString live.id ++ " selected"
  | .sectionChanged kind (some running) live =>
    if running.id = live.id then
      kind.label ++ " " ++ toString live.id ++ " changed from version " ++ toString running.version
        ++ " to " ++ toString live.version
    else kind.label ++ " " ++ toString running.id ++ " replaced by " ++ toString live.id
  | .groupRemoved id => "group " ++ toString id ++ " was removed"
  | .groupChanged id running live =>
    "group " ++ toString id ++ " changed from version " ++ toString running ++ " to "
      ++ toString live
  | .unreadable => "frozen group versions are unreadable"

/-- The difference in one kind of section. -/
def ofSection (frozen : RunningState) (live : LiveStamps) (kind : SectionKind) : Option Drift :=
  match live.stamp kind with
  | none => some (.unselected kind)
  | some stamp =>
    if frozen.stamp kind = some stamp then none
    else some (.sectionChanged kind (frozen.stamp kind) stamp)

/-- The difference in one group. -/
def ofGroup (live : LiveStamps) (frozen : Id × Version) : Option Drift :=
  match live.groups.lookup frozen.1 with
  | none => some (.groupRemoved frozen.1)
  | some version =>
    if version = frozen.2 then none else some (.groupChanged frozen.1 frozen.2 version)

/-- The first difference in the groups. -/
def ofGroups (frozen : RunningState) (live : LiveStamps) : Option Drift :=
  match frozen.frozenVersions? with
  | none => some .unreadable
  | some versions =>
    if versions.length = frozen.groups.length then
      (frozen.groups.zip versions).findSome? (ofGroup live)
    else some .unreadable

/-- The first difference: whether the proxy runs at all, then the sections, then the groups. -/
def detect (frozen : RunningState) (live : LiveStamps) : Option Drift :=
  if frozen.running then
    (SectionKind.all.findSome? (ofSection frozen live)).or (ofGroups frozen live)
  else some .notRunning

end Drift
end ProxyPlane
